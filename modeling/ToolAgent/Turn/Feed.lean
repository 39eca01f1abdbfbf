/-
A turn whose events go into a channel as they are emitted. Whoever receives them may go
away before the turn or at any time in it; what is sent after that is lost, and the turn
goes on as if nothing had happened.
-/
import ToolAgent.Turn.Stage

namespace ToolAgent

/-- The channel of a turn. -/
structure Channel where
  /-- What was sent while there was a receiver, in order. -/
  sent : List Event
  /-- There is no receiver any more. -/
  abandoned : Bool

namespace Channel

def empty : Channel := ⟨[], false⟩

def send (c : Channel) (es : List Event) : Channel :=
  if c.abandoned then c else { c with sent := c.sent ++ es }

def abandon (c : Channel) : Channel := { c with abandoned := true }

end Channel

/-- A turn at a stage, and the channel for its events. -/
structure Feed (σ : Type) where
  stage : Stage
  turn : Turn σ
  channel : Channel

namespace Feed

variable {σ : Type}

def start (inputs : List ChatMessage) (t : Turn σ) : Feed σ := ⟨.arriving inputs, t, .empty⟩

/-- The turn takes a step, and sends what it emits. -/
def step (a : Agent) (client : Client σ) (f : Feed σ) : Feed σ :=
  let (stage, turn) := a.step client f.turn f.stage
  ⟨stage, turn, f.channel.send (turn.events.drop f.turn.events.length)⟩

/-- What may happen next: the turn goes on, or the receiver goes away. -/
inductive Move where
  | step
  | abandon
  deriving DecidableEq

def perform (a : Agent) (client : Client σ) (f : Feed σ) : Move → Feed σ
  | .step => f.step a client
  | .abandon => { f with channel := f.channel.abandon }

def run (a : Agent) (client : Client σ) (moves : List Move) (f : Feed σ) : Feed σ :=
  moves.foldl (perform a client) f

end Feed
end ToolAgent
