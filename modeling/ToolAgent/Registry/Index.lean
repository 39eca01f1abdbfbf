/-
A registry as it is kept for lookup: the tools in a row, the place of each under its name, and the
handoffs under theirs.

Three tests on the names come first, one after the other. Then the tools are put in, and behind
them the handoffs, each as a tool and on its own.
-/
import ToolAgent.Registry
import Mathlib.Data.List.Nodup

namespace ToolAgent

/-- Tools in a row, and where to find them. -/
structure Registry.Index where
  tools : Array Tool
  places : Std.HashMap String Nat
  handoffs : Std.HashMap String Handoff
  inRow : ∀ (name : String) (i : Nat), places[name]? = some i → i < tools.size

namespace Registry.Index

def empty : Index := ⟨#[], ∅, ∅, by simp⟩

/-- Puts a tool behind the others. An equal name would then lead to it, and no longer to the one before. -/
def insert (x : Index) (t : Tool) : Index where
  tools := x.tools.push t
  places := x.places.insert t.name x.tools.size
  handoffs := x.handoffs
  inRow name i h := by
    rw [Std.HashMap.getElem?_insert] at h
    rw [Array.size_push]
    split at h
    · cases h; omega
    · exact Nat.lt_succ_of_lt (x.inRow name i h)

def insertHandoff (x : Index) (h : Handoff) : Index :=
  { x.insert h.tool with handoffs := x.handoffs.insert h.name h }

def get? (x : Index) (name : String) : Option Tool :=
  match h : x.places[name]? with
  | none => none
  | some i =>
    have := x.inRow name i h
    some x.tools[i]

def handoff? (x : Index) (name : String) : Option Handoff := x.handoffs[name]?

/-- Whether a name comes that was seen before. -/
def repeats (seen : Std.HashSet String) : List String → Bool
  | [] => false
  | n :: ns => seen.contains n || repeats (seen.insert n) ns

def build (tools : List Tool) (handoffs : List Handoff) : Except NameClash Index :=
  let toolNames := tools.map (·.name)
  let handoffNames := handoffs.map (·.name)
  if repeats ∅ toolNames then .error (.tools toolNames)
  else if repeats ∅ handoffNames then .error (.handoffs handoffNames)
  else if handoffNames.any toolNames.contains then .error (.shared handoffNames toolNames)
  else .ok (handoffs.foldl insertHandoff (tools.foldl insert .empty))

end Registry.Index
end ToolAgent
