/-
A client that plays back given answers, and one that follows a script of delays,
cancellations and failures.
-/
import ToolAgent.Client

namespace ToolAgent

/-- The answers left, and the requests received so far. -/
structure Replay where
  queue : List Inference
  requests : List Request
  deriving Repr, Inhabited

namespace Replay

def ofList (answers : List Inference) : Replay := ⟨answers, []⟩

def remaining (r : Replay) : Nat := r.queue.length

/-- Takes the next answer, unless the token is cancelled. -/
def create (r : Replay) (request : Request) (clock : Clock) : Reply × Replay × Clock :=
  if clock.isCancelled then (.error .cancelled, r, clock)
  else
    let requests := r.requests ++ [request]
    match r.queue with
    | [] => (.error .exhausted, ⟨[], requests⟩, clock)
    | answer :: queue => (.result answer, ⟨queue, requests⟩, clock)

def client (capabilities : Capabilities) : Client Replay := ⟨capabilities, create⟩

end Replay

/-- One answer of a script: after a delay, perhaps cancelling the token. -/
structure Cue where
  delay : Nat
  cancels : Bool
  reply : Reply
  deriving Repr, Inhabited

/-- A client that follows a script without regard for the token. -/
def Cue.client (capabilities : Capabilities) : Client (List Cue) where
  capabilities := capabilities
  create cues _ clock :=
    match cues with
    | [] => (.error .exhausted, [], clock)
    | cue :: cues =>
      let clock := clock.sleep cue.delay
      (cue.reply, cues, if cue.cancels then clock.cancel else clock)

end ToolAgent
