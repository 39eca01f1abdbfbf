/-
A turn in single steps, as far as it can be seen from outside: it may pause before
and after every provider of memory, every inference and every round of a batch, and
an event is out as soon as it is emitted.

A collaborator's own work is one step. It may pause as well, but until it is done
the turn does nothing else. A turn with a batch that never ends is stuck there.
-/
import ToolAgent.Turn

namespace ToolAgent

/-- A batch under way: what is left of its bound, the calls, the line of the next
round, and the records so far. -/
structure Effort where
  bound : Nat
  clock : Clock
  calls : Batch.Calls
  rested : Batch.Line
  line : Batch.Line
  audits : List Audit

namespace Effort

def start (r : Registry) (clock : Clock) (calls : List ToolCall) : Effort :=
  let all := List.range calls.length
  ⟨Batch.bound r calls, clock, calls.map (·, .fresh), all, all, []⟩

/-- One round, after which the batch goes on, or there are no more rounds. -/
def step (r : Registry) (e : Effort) : Effort :=
  match e.bound with
  | 0 => e
  | bound + 1 =>
    let (calls, clock, audits) := Batch.round r e.clock e.calls e.line
    let ended : Effort := ⟨0, clock, calls, e.rested, e.line, e.audits ++ audits⟩
    if Batch.isSettled calls then ended
    else
      match Batch.nextClock? clock calls with
      | none => ended
      | some clock =>
        let rested := e.rested.filter (!e.line.contains ·) ++ e.line
        ⟨bound, clock, calls, rested, Batch.nextLine clock rested calls, e.audits ++ audits⟩

/-- The report on a batch that is over, if it has one. -/
def report? (e : Effort) : Option BatchReport := Batch.report? (e.calls, e.clock, e.audits)

end Effort

/-- What a turn does next. -/
inductive Stage where
  | arriving (inputs : List ChatMessage)
  | recalling (providers : List Provider)
  | asking
  /-- The model asked for calls. -/
  | calling (calls : List ToolCall) (usage : Usage)
  | executing (calls : List ToolCall) (effort : Effort)
  | concluding (calls : List ToolCall) (results : List ToolResult)
  | reflecting
  | ended (ending : Ending)

/-- The turn waits for a batch that never ends. -/
def Stage.Stuck : Stage → Prop
  | .executing _ effort => effort.bound = 0 ∧ effort.report? = none
  | _ => False

namespace Agent

variable {σ : Type}

/-- Stores the results of a batch that is over. -/
def collect (a : Agent) (report : BatchReport) (t : Turn σ) : Turn σ :=
  let t := { t.store (.toolResults report.results) with clock := report.clock }
  (t.note (report.audits.map .audit)).emit (.toolCallExecution report.results a.name)

/-- One step of a turn. -/
def step (a : Agent) (client : Client σ) (t : Turn σ) : Stage → Stage × Turn σ
  | .arriving inputs =>
    match takeIn client.capabilities inputs t with
    | (.error stop, t) => (.ended (.error stop), t)
    | (.ok (), t) => (.recalling a.memory, t)
  | .recalling [] => (.asking, t)
  | .recalling (p :: ps) =>
    match a.augment [p] t with
    | (.error stop, t) => (.ended (.error stop), t)
    | (.ok (), t) => (.recalling ps, t)
  | .asking =>
    match a.ask client a.registry.offers t with
    | (.error stop, t) => (.ended (.error stop), t)
    | (.ok ⟨.text text, usage⟩, t) => (.ended (.ok ⟨a.textReply text usage, t.events⟩), t)
    | (.ok ⟨.toolCalls calls, usage⟩, t) => (.calling calls usage, t)
  | .calling calls usage =>
    (.executing calls (.start a.registry t.clock calls), t.emit (.toolCallRequest calls a.name (some usage)))
  | .executing calls effort =>
    if effort.bound = 0 then
      match effort.report? with
      | some report => (.concluding calls report.results, a.collect report t)
      | none => (.executing calls effort, t)
    else (.executing calls (effort.step a.registry), t)
  | .concluding calls results =>
    if a.reflects ∧ a.registry.handoffsIn calls = [] then (.reflecting, t)
    else
      let (ending, t) := a.conclude client calls results t
      (.ended ending, t)
  | .reflecting =>
    let (ending, t) := a.reflect client t
    (.ended ending, t)
  | .ended ending => (.ended ending, t)

/-- A turn on some inputs after so many steps. -/
def moment (a : Agent) (client : Client σ) (inputs : List ChatMessage) (t : Turn σ) :
    Nat → Stage × Turn σ
  | 0 => (.arriving inputs, t)
  | n + 1 =>
    let (stage, t) := a.moment client inputs t n
    a.step client t stage

end Agent
end ToolAgent
