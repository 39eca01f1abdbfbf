/-
A client that needs no model. It asks for the tool `echo` with the user's last
text, if that tool is on offer, and puts what it sees last into words.
-/
import ToolAgent.Client
import ToolAgent.Json.Printer

namespace ToolAgent.Parrot

/-- What the parrot says to a text. -/
def speak (text : String) : String := "Echo from Mock: " ++ text

/-- The text of the last message of a user. -/
def lastUserText (ms : List Message) : String :=
  (ms.reverse.findSome? Message.userText?).getD "(no input)"

/-- The call of `echo` with a text. -/
def echoCall (id text : String) : ToolCall :=
  ⟨id, "echo", (Json.object [("text", .string text)]).compact⟩

/-- The answer to a request. A call takes its id from a supply, of which `used` are
taken; the second component counts them on. -/
def answer (idOf : Nat → String) (used : Nat) (r : Request) : Inference × Nat :=
  match r.messages.getLast? with
  | some (.toolResults results) =>
    (⟨.text (speak ("; ".intercalate (results.map (·.content)))), .none⟩, used)
  | _ =>
    let text := lastUserText r.messages
    let usage : Usage := ⟨UInt64.ofNat r.messages.length, 1⟩
    if r.toolNames.contains "echo" then (⟨.toolCalls [echoCall (idOf used) text], usage⟩, used + 1)
    else (⟨.text (speak text), usage⟩, used)

/-- The state counts the ids that are used up. -/
def client (idOf : Nat → String) : Client Nat where
  capabilities := .usual
  create used r clock :=
    let (a, used) := answer idOf used r
    (.result a, used, clock)

end ToolAgent.Parrot
