/-
Turns that run in the background on one agent, each as a task of its own.

Only one task at a time has the agent; the others queue for it and get it in the order
in which they asked. A task is two parties. The one runs the turn, whose events go into
a channel; the other passes them on from there to the task's outbox. When the turn has
ended and no event is left in between, the task puts the last item into the outbox, then
gives the agent back, and then closes the outbox. Someone may receive what is in the
outbox, or leave it; what is sent after that is lost.

The parties of all tasks and the receivers act in any order (`run`). Whoever acts when
there is nothing to do for it changes nothing. Time passes only in the turns themselves.
A task whose turn is stuck keeps the agent for ever, and sends nothing more.
-/
import ToolAgent.Session
import ToolAgent.Turn.Stage

namespace ToolAgent.Background

/-- The inputs of a turn and its token. -/
abbrev Job := List ChatMessage × Token

/-! ## Outboxes -/

structure Outbox where
  /-- What the receiver has taken, in order. -/
  received : List Output
  /-- What it has not taken yet. -/
  waiting : List Output
  /-- There is no receiver any more. -/
  abandoned : Bool
  /-- There is no sender any more. -/
  closed : Bool

namespace Outbox

def empty : Outbox := ⟨[], [], false, false⟩

def send (o : Outbox) (x : Output) : Outbox :=
  if o.abandoned then o else { o with waiting := o.waiting ++ [x] }

def close (o : Outbox) : Outbox := { o with closed := true }

def receive (o : Outbox) : Outbox :=
  match o.waiting with
  | [] => o
  | x :: xs => { o with received := o.received ++ [x], waiting := xs }

def abandon (o : Outbox) : Outbox := { o with waiting := [], abandoned := true }

/-- All that the receiver has or can still get. -/
def items (o : Outbox) : List Output := o.received ++ o.waiting

end Outbox

/-! ## Tasks -/

inductive Phase where
  /-- Has not asked for the agent yet. -/
  | outside
  | queued
  /-- Has the agent. -/
  | inside
  /-- Has given the agent back. -/
  | leaving
  | gone
  deriving DecidableEq, Repr

/-- What the task that has the agent is at. -/
structure Work (σ : Type) where
  stage : Stage
  turn : Turn σ
  /-- Events that are emitted and not passed on yet. -/
  pending : List Event
  /-- The last item is sent. -/
  told : Bool

/-- The agent is free, at an instant, or a task of so many has it. -/
inductive Hold (σ : Type) (n : Nat) where
  | free (session : Session σ) (now : Nat)
  | taken (i : Fin n) (work : Work σ)

/-- The agent that tasks share, and how far each of them has come. -/
structure Desk (σ : Type) (n : Nat) where
  hold : Hold σ n
  /-- Who came first is first. -/
  queue : List (Fin n)
  phase : Fin n → Phase
  /-- The tasks that have given the agent back, in order, each with its turn. -/
  log : List (Fin n × Ending × Turn σ)

/-- What a task does to its outbox. -/
inductive Signal where
  | send (x : Output)
  | close

def Outbox.get (o : Outbox) : Signal → Outbox
  | .send x => o.send x
  | .close => o.close

variable {σ : Type} {n : Nat}

/-- A value for each task, with that of one task replaced. -/
def put {α : Type} (f : Fin n → α) (i : Fin n) (x : α) : Fin n → α := fun j => if j = i then x else f j

@[simp] theorem put_self {α : Type} (f : Fin n → α) (i : Fin n) (x : α) : put f i x i = x := if_pos rfl

theorem put_ne {α : Type} {f : Fin n → α} {i j : Fin n} {x : α} (h : j ≠ i) : put f i x j = f j := if_neg h

namespace Work

def start (s : Session σ) (now : Nat) (job : Job) : Work σ :=
  ⟨.arriving job.1, .start s.context s.client (job.2.clock now), [], false⟩

/-- The turn takes a step, and the events it emits go into the channel. -/
def step (a : Agent) (client : Client σ) (w : Work σ) : Work σ :=
  let (stage, turn) := a.step client w.turn w.stage
  { w with
    stage := stage
    turn := turn
    pending := w.pending ++ turn.events.drop w.turn.events.length }

end Work

namespace Desk

/-- The turn of the task that has the agent is stuck. -/
def Stuck (d : Desk σ n) : Prop := ∃ i w, d.hold = .taken i w ∧ w.stage.Stuck

def start (s : Session σ) (now : Nat) : Desk σ n := ⟨.free s now, [], fun _ => .outside, []⟩

def setPhase (d : Desk σ n) (i : Fin n) (p : Phase) : Desk σ n := { d with phase := put d.phase i p }

/-- A task gets the agent. -/
def take (d : Desk σ n) (jobs : Fin n → Job) (s : Session σ) (now : Nat) (i : Fin n) : Desk σ n :=
  { d.setPhase i .inside with hold := .taken i (.start s now (jobs i)) }

/-- The agent goes to the first in the queue. -/
def pass (d : Desk σ n) (jobs : Fin n → Job) (s : Session σ) (now : Nat) : Desk σ n :=
  match d.queue with
  | [] => { d with hold := .free s now }
  | i :: queue => { d with queue := queue }.take jobs s now i

/-- A task gives the agent back. -/
def leave (d : Desk σ n) (jobs : Fin n → Job) (i : Fin n) (ending : Ending) (t : Turn σ) : Desk σ n :=
  { d.setPhase i .leaving with log := d.log ++ [(i, ending, t)] }.pass jobs (.after t) t.clock.now

/-- A task asks for the agent. -/
def ask (d : Desk σ n) (jobs : Fin n → Job) (i : Fin n) : Desk σ n :=
  match d.hold with
  | .free s now => d.take jobs s now i
  | .taken _ _ => { d.setPhase i .queued with queue := d.queue ++ [i] }

/-- The task that has the agent goes on with its turn, or with what follows it. -/
def work (d : Desk σ n) (a : Agent) (client : Client σ) (jobs : Fin n → Job) (i : Fin n) (w : Work σ) :
    Desk σ n × Option Signal :=
  match w.stage with
  | .ended ending =>
    if w.told then (d.leave jobs i ending w.turn, none)
    else if w.pending.isEmpty then
      ({ d with hold := .taken i { w with told := true } }, some (.send ending.output))
    else (d, none)
  | _ => ({ d with hold := .taken i (w.step a client) }, none)

/-- The first party of a task acts. -/
def advance (d : Desk σ n) (a : Agent) (client : Client σ) (jobs : Fin n → Job) (i : Fin n) :
    Desk σ n × Option Signal :=
  match d.phase i, d.hold with
  | .outside, _ => (d.ask jobs i, none)
  | .inside, .taken j w => if j = i then d.work a client jobs i w else (d, none)
  | .leaving, _ => (d.setPhase i .gone, some .close)
  | _, _ => (d, none)

/-- The second party of a task acts: it passes an event on. -/
def forward (d : Desk σ n) (i : Fin n) : Desk σ n × Option Signal :=
  match d.hold with
  | .taken j w =>
    match w.pending with
    | e :: pending =>
      if j = i then ({ d with hold := .taken j { w with pending := pending } }, some (.send (.event e)))
      else (d, none)
    | [] => (d, none)
  | .free _ _ => (d, none)

end Desk

/-! ## Schedules -/

/-- Who acts. -/
inductive Act (n : Nat) where
  | advance (i : Fin n)
  | forward (i : Fin n)
  | receive (i : Fin n)
  | abandon (i : Fin n)
  deriving DecidableEq

/-- The act of a task, not of a receiver. -/
def Act.ofTask : Act n → Bool
  | .advance _ | .forward _ => true
  | .receive _ | .abandon _ => false

structure State (σ : Type) (n : Nat) where
  desk : Desk σ n
  outbox : Fin n → Outbox

namespace State

def start (s : Session σ) (now : Nat) : State σ n := ⟨.start s now, fun _ => .empty⟩

def setOutbox (b : State σ n) (i : Fin n) (o : Outbox) : State σ n :=
  { b with outbox := put b.outbox i o }

/-- The desk after the act of a task, and what the task sent. -/
def after (b : State σ n) (i : Fin n) (done : Desk σ n × Option Signal) : State σ n :=
  let b := { b with desk := done.1 }
  match done.2 with
  | none => b
  | some signal => b.setOutbox i ((b.outbox i).get signal)

def perform (a : Agent) (client : Client σ) (jobs : Fin n → Job) (b : State σ n) : Act n → State σ n
  | .advance i => b.after i (b.desk.advance a client jobs i)
  | .forward i => b.after i (b.desk.forward i)
  | .receive i => b.setOutbox i (b.outbox i).receive
  | .abandon i => b.setOutbox i (b.outbox i).abandon

def run (a : Agent) (client : Client σ) (jobs : Fin n → Job) (acts : List (Act n)) (b : State σ n) : State σ n :=
  acts.foldl (perform a client jobs) b

/-- All tasks have come to their end. -/
def Finished (b : State σ n) : Prop := ∀ i, b.desk.phase i = .gone

end State
end ToolAgent.Background
