/-
One call run with no others beside it: what a batch gives for each of its calls
as long as no tool cancels the token. A call that waits for a cancellation which
nobody has announced has no end, here as there, and what is given for it tells
nothing.
-/
import ToolAgent.Batch

namespace ToolAgent

/-- The end of a call whose tool has the clock to itself. -/
def ToolCall.runAlone (c : ToolCall) (clock : Clock) : Body → Verdict
  | .finish o => c.verdictOf o
  | .sleep ms rest =>
    if ms = 0 then c.runAlone clock rest
    else if (clock.sleep ms).isCancelled then .error (.cutOff c.id)
    else c.runAlone (clock.sleep ms) rest
  | .giveWay rest => if clock.isCancelled then .error (.cutOff c.id) else c.runAlone clock rest
  | .awaitCancel rest => if clock.isCancelled then c.runAlone clock rest else .error (.cutOff c.id)
  | .cancel rest => c.runAlone clock.cancel rest

def Registry.executeAlone (r : Registry) (clock : Clock) (c : ToolCall) : ToolResult :=
  c.resultOf <|
    match r.admit c with
    | .error e => .error e
    | .ok body => if clock.isCancelled then .error (.cutOff c.id) else c.runAlone clock body

end ToolAgent
