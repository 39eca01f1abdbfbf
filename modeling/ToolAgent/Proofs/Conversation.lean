/-
Everything that can be done to an agent from outside, and what it comes to.

A `Conversation` is a session with the states saved from it and a log of what
happened. An `Operation` takes turns, resets, saves or loads; `Conversation.run`
goes through any list of them. A turn that never ends keeps the agent, so a run has
no meaning from there on. `run_induct` is how an invariant of runs is proved:
from the single turn, the reset, the saving and the loading of an own state.
-/
import ToolAgent.Session
import ToolAgent.Proofs.Memory

namespace ToolAgent

variable {σ : Type}

/-- What is done to an agent from outside. -/
inductive Operation where
  /-- Turns that are started together, or a single one, with memory as it is then. -/
  | turns (memory : List Provider) (now : Nat) (turns : List (List ChatMessage × Token))
  | reset
  | save
  /-- Loads a state saved before; the last one saved is the first. -/
  | restore (i : Nat)
  /-- Loads any transcript. -/
  | load (t : Transcript)
  /-- Loads a state from its JSON value. -/
  | loadJson (v : Json)

namespace Operation

/-- Memory puts only messages of the system or of users into the context. -/
def AddsNotes : Operation → Prop
  | .turns memory _ _ => ∀ p ∈ memory, p.AddsNotes
  | _ => True

/-- Loads what need not come from the conversation itself. -/
def isForeign : Operation → Bool
  | .load _ | .loadJson _ => true
  | _ => false

def isRestore : Operation → Bool
  | .restore _ => true
  | _ => false

def isReset : Operation → Bool
  | .reset => true
  | _ => false

end Operation

/-- An entry of the log: how a turn ended and what it was by then, or a reset. -/
inductive Entry (σ : Type) where
  | turn (ended : Ending × Turn σ)
  | reset

namespace Entry

def isReset : Entry σ → Bool
  | .turn _ => false
  | .reset => true

def turn? : Entry σ → Option (Ending × Turn σ)
  | .turn ended => some ended
  | .reset => none

end Entry

structure Conversation (σ : Type) where
  session : Session σ
  /-- The last one saved comes first. -/
  saved : List SavedState
  /-- The latest entry comes first. -/
  log : List (Entry σ)

namespace Conversation

/-- Nothing is stored yet. -/
def start (window : Window) (client : σ) : Conversation σ := ⟨⟨⟨[], window⟩, client⟩, [], []⟩

def context (c : Conversation σ) : Context := c.session.context

def withContext (c : Conversation σ) (context : Context) : Conversation σ :=
  { c with session := { c.session with context := context } }

def afterTurn (c : Conversation σ) (ended : Ending × Turn σ) : Conversation σ :=
  { c with session := .after ended.2, log := .turn ended :: c.log }

def afterReset (c : Conversation σ) : Conversation σ :=
  { c.withContext c.context.clear with log := .reset :: c.log }

def afterSave (c : Conversation σ) : Conversation σ :=
  { c with saved := c.context.saveState :: c.saved }

def perform (a : Agent) (client : Client σ) (c : Conversation σ) : Operation → Conversation σ
  | .turns memory now turns =>
    (c.session.turns { a with memory := memory } client now turns).foldl afterTurn c
  | .reset => c.afterReset
  | .save => c.afterSave
  | .restore i =>
    match c.saved[i]? with
    | none => c
    | some s => c.withContext (c.context.load s.transcript)
  | .load t => c.withContext (c.context.load t)
  | .loadJson v =>
    match c.context.loadJson v with
    | .error _ => c
    | .ok context => c.withContext context

def run (a : Agent) (client : Client σ) (ops : List Operation) (c : Conversation σ) : Conversation σ :=
  ops.foldl (perform a client) c

/-- The turns since the last reset. -/
def sinceReset (c : Conversation σ) : List (Ending × Turn σ) :=
  (c.log.takeWhile (!·.isReset)).filterMap Entry.turn?

@[simp] theorem afterTurn_messages (c : Conversation σ) (ended : Ending × Turn σ) :
    (c.afterTurn ended).context.messages = ended.2.context.messages := rfl

@[simp] theorem sinceReset_afterTurn (c : Conversation σ) (ended : Ending × Turn σ) :
    (c.afterTurn ended).sinceReset = ended :: c.sinceReset := rfl

/-! ## Invariants -/

section Induction

variable {a : Agent} {client : Client σ} {P : Conversation σ → Prop}

theorem turns_induct {b : Agent} :
    ∀ {turns : List (List ChatMessage × Token)} {now : Nat} {c : Conversation σ},
      (∀ c now inputs token, P c → P (c.afterTurn (c.session.turn b client now inputs token))) → P c →
        P ((c.session.turns b client now turns).foldl afterTurn c)
  | [], _, _, _, hc => hc
  | (inputs, token) :: _, now, c, hturn, hc =>
    turns_induct (c := c.afterTurn (c.session.turn b client now inputs token)) hturn
      (hturn c now inputs token hc)

/-- What single turns, resets, savings and loadings of own states keep is kept by every run that
loads nothing else. -/
theorem run_induct {ops : List Operation} {c : Conversation σ}
    (hops : ∀ o ∈ ops, o.AddsNotes ∧ o.isForeign = false)
    (hturn : ∀ c memory now inputs token, (∀ p ∈ memory, p.AddsNotes) → P c →
      P (c.afterTurn (c.session.turn { a with memory := memory } client now inputs token)))
    (hreset : ∀ c, (∃ o ∈ ops, o.isReset = true) → P c → P c.afterReset)
    (hsave : ∀ c, P c → P c.afterSave)
    (hrestore : ∀ c, ∀ s ∈ c.saved, (∃ o ∈ ops, o.isRestore = true) → P c →
      P (c.withContext (c.context.load s.transcript)))
    (hc : P c) : P (c.run a client ops) := by
  have step : ∀ c, ∀ o ∈ ops, P c → P (c.perform a client o) := by
    intro c o ho hc
    cases o with
    | turns memory now turns =>
      exact turns_induct (fun c now inputs token => hturn c memory now inputs token (hops _ ho).1) hc
    | reset => exact hreset c ⟨_, ho, rfl⟩ hc
    | save => exact hsave c hc
    | restore i =>
      simp only [perform]
      split
      · exact hc
      next s hs => exact hrestore c s (List.mem_of_getElem? hs) ⟨_, ho, rfl⟩ hc
    | load | loadJson => cases (hops _ ho).2
  unfold run
  clear hops hturn hreset hsave hrestore
  induction ops generalizing c with
  | nil => exact hc
  | cons o ops ih =>
    exact ih (step c o (by simp) hc) fun c o' ho' => step c o' (List.mem_cons_of_mem o ho')

end Induction

end Conversation
end ToolAgent
