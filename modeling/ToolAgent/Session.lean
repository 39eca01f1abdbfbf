/-
Turns of one agent after another. A turn that runs in the background hands out
its events as they come and, last, its response or its error; a breakdown counts
as an error. Turns that are started together take the agent one at a time, in
the order of their start, while the clock runs on.
-/
import ToolAgent.Turn
import ToolAgent.SavedState

namespace ToolAgent

/-- When the token of a turn is cancelled, counted from a common start. -/
inductive Token where
  | never
  | before
  | after (ms : Nat)
  deriving DecidableEq, Repr

/-- The clock of a turn that begins at an instant. -/
def Token.clock (now : Nat) : Token → Clock
  | .never => ⟨now, false, none⟩
  | .before => ⟨now, true, none⟩
  | .after ms => ⟨now, false, some ms⟩

/-- What a background turn hands out. -/
inductive Output where
  | event (e : Event)
  | response (r : Response)
  | error (e : AgentError)
  deriving Repr

def Output.isTerminal : Output → Bool
  | .event _ => false
  | _ => true

/-- The error that a turn which broke off is reported with. -/
def Stop.toError : Stop → AgentError
  | .error e => e
  | .panic payload => .internal payload.message

def Ending.output : Ending → Output
  | .ok r => .response r
  | .error stop => .error stop.toError

/-- All that a background turn hands out. -/
def outputs {σ : Type} (ended : Ending × Turn σ) : List Output :=
  ended.2.events.map .event ++ [ended.1.output]

/-- What lasts from turn to turn. -/
structure Session (σ : Type) where
  context : Context
  client : σ

namespace Session

variable {σ : Type}

/-- A turn of a session that begins at an instant. -/
def turn (s : Session σ) (a : Agent) (client : Client σ) (now : Nat) (inputs : List ChatMessage)
    (token : Token) : Ending × Turn σ :=
  a.turn client inputs (.start s.context s.client (token.clock now))

/-- The session after a turn, however it ended. -/
def after (t : Turn σ) : Session σ := ⟨t.context, t.client⟩

/-- Turns that are started together, in the order in which they take the agent. -/
def turns (s : Session σ) (a : Agent) (client : Client σ) (now : Nat) :
    List (List ChatMessage × Token) → List (Ending × Turn σ)
  | [] => []
  | (inputs, token) :: rest =>
    let ended := s.turn a client now inputs token
    ended :: (after ended.2).turns a client ended.2.clock.now rest

end Session
end ToolAgent
