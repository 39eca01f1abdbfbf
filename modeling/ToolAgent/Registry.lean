/-
The tools an agent offers: plain tools first, then one for each handoff, all
under distinct names.
-/
import ToolAgent.Handoff
import ToolAgent.Text.Quoted

namespace ToolAgent

structure Registry where
  tools : List Tool
  handoffs : List Handoff
  distinct : (tools.map (·.name) ++ handoffs.map (·.name)).Nodup

/-- Why tools and handoffs cannot be offered together. -/
inductive NameClash where
  | tools (names : List String)
  | handoffs (names : List String)
  | shared (ofHandoffs ofTools : List String)
  deriving DecidableEq, Repr

def NameClash.message : NameClash → String
  | .tools names => "Tool names must be unique: " ++ Text.quotedList names
  | .handoffs names => "Handoff names must be unique: " ++ Text.quotedList names
  | .shared ofHandoffs ofTools =>
    "Handoff names must be unique from tool names. Handoff names: " ++ Text.quotedList ofHandoffs
      ++ "; tool names: " ++ Text.quotedList ofTools

namespace Registry

def empty : Registry := ⟨[], [], .nil⟩

def build (tools : List Tool) (handoffs : List Handoff) : Except NameClash Registry :=
  let toolNames := tools.map (·.name)
  let handoffNames := handoffs.map (·.name)
  if hTools : toolNames.Nodup then
    if hHandoffs : handoffNames.Nodup then
      if hShared : ∀ n ∈ handoffNames, n ∉ toolNames then
        .ok ⟨tools, handoffs, List.nodup_append.2
          ⟨hTools, hHandoffs, fun _ ha _ hb hab => hShared _ hb (hab ▸ ha)⟩⟩
      else .error (.shared handoffNames toolNames)
    else .error (.handoffs handoffNames)
  else .error (.tools toolNames)

/-- All tools on offer, in order. -/
def all (r : Registry) : List Tool := r.tools ++ r.handoffs.map Handoff.tool

def get? (r : Registry) (name : String) : Option Tool := r.all.find? (·.name = name)

def handoff? (r : Registry) (name : String) : Option Handoff := r.handoffs.find? (·.name = name)

def hasTools (r : Registry) : Bool := !r.tools.isEmpty

def hasHandoffs (r : Registry) : Bool := !r.handoffs.isEmpty

def isEmpty (r : Registry) : Bool := r.all.isEmpty

def size (r : Registry) : Nat := r.all.length

def toolNames (r : Registry) : List String := r.all.map (·.name)

def offers (r : Registry) : List ToolOffer := r.all.map Tool.offer

/-- The handoffs that calls name, in the order of the calls. -/
def handoffsIn (r : Registry) (calls : List ToolCall) : List Handoff :=
  calls.filterMap fun c => r.handoff? c.name

end Registry
end ToolAgent
