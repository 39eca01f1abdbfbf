/-
A batch of tool calls, run together.

Calls go in rounds. In a round some unfinished calls are looked at, one after the
other: one that is due goes on up to its next pause, and one that would start or
go on under a cancelled token is cut off instead. Between rounds the clock moves
to the next instant at which something is due. So the results keep the order of
the requests, while the audit records come in the order in which the calls finish.

The first round looks at all calls in the order of the requests, and so does every
further one in a batch that is no crowd, or once the token is cancelled. In a crowd
only the calls that are due are looked at; those that gave way come back before
any time passes, the last of them first.

A call that waits for a cancellation when nothing is due any more and none is
announced can never go on. A batch with such a call never ends, and has no report.
-/
import ToolAgent.Registry
import ToolAgent.Json.Printer
import ToolAgent.Json.Reader

namespace ToolAgent

/-- Why a call has no value. -/
inductive CallError where
  | noTools
  | notAvailable (name : String)
  | invalidArguments (tool : String) (fault : Json.Fault)
  | failed (message : String)
  | cutOff (callId : String)
  | panicked (tool : String)
  deriving DecidableEq, Repr

def CallError.message : CallError → String
  | .noTools => "No tools are available."
  | .notAvailable name => "The tool '" ++ name ++ "' is not available."
  | .invalidArguments tool fault =>
    "Invalid arguments for tool '" ++ tool ++ "': " ++ fault.message
  | .failed message => message
  | .cutOff callId => "Tool call '" ++ callId ++ "' was cancelled"
  | .panicked tool => "Tool '" ++ tool ++ "' panicked"

/-- How a call ends: the text of its value, or an error. -/
abbrev Verdict := Except CallError String

/-- The result that goes back to the model. -/
def ToolCall.resultOf (c : ToolCall) : Verdict → ToolResult
  | .ok content => ⟨c.id, content, false⟩
  | .error e => ⟨c.id, "Error: " ++ e.message, true⟩

/-! ## Audit -/

inductive AuditMark where
  | ok
  | cancelled
  | error
  deriving DecidableEq, Repr

def AuditMark.of : Verdict → AuditMark
  | .ok _ => .ok
  | .error (.cutOff _) => .cancelled
  | .error _ => .error

def AuditMark.name : AuditMark → String
  | .ok => "ok"
  | .cancelled => "cancelled"
  | .error => "error"

/-- The record of a finished call. -/
structure Audit where
  tool : String
  callId : String
  mark : AuditMark
  argumentsPreview : String
  deriving DecidableEq, Repr

/-- At most two hundred characters. -/
def preview (arguments : String) : String :=
  let cs := arguments.toList
  if 200 < cs.length then String.ofList (cs.take 200) ++ "..." else arguments

def ToolCall.auditOf (c : ToolCall) (v : Verdict) : Audit :=
  ⟨c.name, c.id, AuditMark.of v, preview c.arguments⟩

/-! ## One call -/

/-- How far a call has come. -/
inductive Progress where
  | fresh
  | asleep (wake : Nat) (rest : Body)
  | givingWay (rest : Body)
  | awaiting (rest : Body)
  | settled (v : Verdict)
  deriving Repr

def Progress.verdict? : Progress → Option Verdict
  | .settled v => some v
  | _ => none

/-- The end of a call from the outcome of its tool. -/
def ToolCall.verdictOf (c : ToolCall) : Outcome → Verdict
  | .value v => .ok v.display
  | .failure message => .error (.failed message)
  | .panic => .error (.panicked c.name)

/-- Goes on up to the next pause. -/
def ToolCall.advance (c : ToolCall) (clock : Clock) : Body → Progress × Clock
  | .finish o => (.settled (c.verdictOf o), clock)
  | .sleep ms rest =>
    if ms = 0 then c.advance clock rest else (.asleep (clock.now + ms) rest, clock)
  | .giveWay rest => (.givingWay rest, clock)
  | .awaitCancel rest => if clock.isCancelled then c.advance clock rest else (.awaiting rest, clock)
  | .cancel rest => c.advance clock.cancel rest

/-- What a call is to do: its tool is looked up and its arguments are read. -/
def Registry.admit (r : Registry) (c : ToolCall) : Except CallError Body :=
  if r.isEmpty then .error .noTools
  else
    match r.get? c.name with
    | none => .error (.notAvailable c.name)
    | some tool =>
      match Json.parse c.arguments with
      | .error fault => .error (.invalidArguments c.name fault)
      | .ok args => .ok (tool.body args)

def ToolCall.cutOff (c : ToolCall) : Progress := .settled (.error (.cutOff c.id))

/-- Starts or goes on with a call, unless the token is cancelled. -/
def ToolCall.resume (c : ToolCall) (clock : Clock) (body : Body) : Progress × Clock :=
  if clock.isCancelled then (c.cutOff, clock) else c.advance clock body

/-- Looks at a call: it goes on if it is due, and is cut off under a cancelled token. -/
def Registry.poll (r : Registry) (c : ToolCall) (clock : Clock) : Progress → Progress × Clock
  | .fresh =>
    match r.admit c with
    | .error e => (.settled (.error e), clock)
    | .ok body => c.resume clock body
  | .asleep wake rest =>
    if wake ≤ clock.now ∨ clock.isCancelled then c.resume clock rest else (.asleep wake rest, clock)
  | .givingWay rest => c.resume clock rest
  | .awaiting rest => if clock.isCancelled then (c.cutOff, clock) else (.awaiting rest, clock)
  | .settled v => (.settled v, clock)

/-! ## All calls -/

namespace Batch

/-- The calls of a batch, each with its progress. -/
abbrev Calls := List (ToolCall × Progress)

/-- The audit record of a call that has just settled. -/
def newAudit (c : ToolCall) (before after : Progress) : List Audit :=
  match before.verdict?, after.verdict? with
  | none, some v => [c.auditOf v]
  | _, _ => []

/-- Places of calls in a batch, in the order in which the calls are looked at. -/
abbrev Line := List Nat

/-- One round, with the records of the calls that settle in it. -/
def round (r : Registry) (clock : Clock) (calls : Calls) : Line → Calls × Clock × List Audit
  | [] => (calls, clock, [])
  | i :: line =>
    match calls[i]? with
    | none => round r clock calls line
    | some (c, p) =>
      let (q, clock) := r.poll c clock p
      let (calls, clock, audits) := round r clock (calls.set i (c, q)) line
      (calls, clock, newAudit c p q ++ audits)

/-- The instant at which a call is due. -/
def dueAt (now : Nat) : Progress → Option Nat
  | .fresh | .givingWay _ => some now
  | .asleep wake _ => some (max now wake)
  | .awaiting _ | .settled _ => none

def isSettled (calls : Calls) : Bool := calls.all fun (_, p) => p.verdict?.isSome

/-- The earlier of two instants. -/
def earlier : Option Nat → Option Nat → Option Nat
  | some a, some b => some (min a b)
  | a, none => a
  | none, b => b

/-- The clock at the next instant at which something is due: now, when a call can
go on or the token is cancelled already. -/
def nextClock? (clock : Clock) (calls : Calls) : Option Clock :=
  if clock.isCancelled then some clock
  else
    let due := calls.foldl (fun e (_, p) => earlier e (dueAt clock.now p)) none
    (earlier due clock.alarm).map fun now => { clock with now := now }

/-- The largest batch that is no crowd. -/
def largestUncrowded : Nat := 30

def hasGivenWay : Progress → Bool
  | .givingWay _ => true
  | _ => false

def isDue (now : Nat) (p : Progress) : Bool := dueAt now p = some now

/-- The calls at some places that pass a test. -/
def among (line : Line) (test : Progress → Bool) (calls : Calls) : Line :=
  line.filter fun i => (calls[i]?).any fun (_, p) => test p

/-- The calls of the next round. `rested` holds all places, the longest not looked at
first. -/
def nextLine (clock : Clock) (rested : Line) (calls : Calls) : Line :=
  if calls.length ≤ largestUncrowded ∨ clock.isCancelled then
    among (List.range calls.length) (·.verdict?.isNone) calls
  else
    match among rested.reverse hasGivenWay calls with
    | [] => among rested (isDue clock.now) calls
    | line => line

/-- Rounds, at most so many, until all calls are settled or nothing is due. -/
def rounds (r : Registry) : Nat → Clock → Calls → Line → Line → Calls × Clock × List Audit
  | 0, clock, calls, _, _ => (calls, clock, [])
  | bound + 1, clock, calls, rested, line =>
    let (calls, clock, audits) := round r clock calls line
    if isSettled calls then (calls, clock, audits)
    else
      match nextClock? clock calls with
      | none => (calls, clock, audits)
      | some clock =>
        let rested := rested.filter (!line.contains ·) ++ line
        let (calls, clock, later) := rounds r bound clock calls rested (nextLine clock rested calls)
        (calls, clock, audits ++ later)

/-- Every round but the first settles a call or takes a step of one, so there are no
more rounds than this. -/
def bound (r : Registry) (calls : List ToolCall) : Nat :=
  calls.foldl (fun n c => n + match r.admit c with
    | .ok body => body.size + 1
    | .error _ => 1) 1

end Batch

/-! ## Reports -/

/-- What came of a batch. -/
structure BatchReport where
  results : List ToolResult
  audits : List Audit
  clock : Clock

namespace Batch

/-- The results of calls, if all of them have come to an end. -/
def results? (calls : Calls) : Option (List ToolResult) := calls.mapM fun (c, p) => p.verdict?.map c.resultOf

/-- The report on a batch when there are no more rounds, if it has one. -/
def report? : Calls × Clock × List Audit → Option BatchReport
  | (calls, clock, audits) => (results? calls).map (⟨·, audits, clock⟩)

/-- The end of a call that is known to have one. For any other this is a mere stand-in, which tells
nothing: no batch with such a call has a report. -/
def verdict (c : ToolCall) (p : Progress) : Verdict := p.verdict?.getD (.error (.cutOff c.id))

/-- The report on a batch that is known to have one. -/
def report : Calls × Clock × List Audit → BatchReport
  | (calls, clock, audits) => ⟨calls.map fun (c, p) => c.resultOf (verdict c p), audits, clock⟩

end Batch

namespace Registry

/-- All rounds of a batch of calls that run together. -/
def allRounds (r : Registry) (clock : Clock) (calls : List ToolCall) : Batch.Calls × Clock × List Audit :=
  let all := List.range calls.length
  Batch.rounds r (Batch.bound r calls) clock (calls.map (·, .fresh)) all all

/-- Runs a batch of calls together. A batch that never ends has no report. -/
def execute? (r : Registry) (clock : Clock) (calls : List ToolCall) : Option BatchReport :=
  Batch.report? (r.allRounds clock calls)

/-- Runs a batch of calls that is known to end. For any other this tells nothing. -/
def execute (r : Registry) (clock : Clock) (calls : List ToolCall) : BatchReport :=
  Batch.report (r.allRounds clock calls)

end Registry
end ToolAgent
