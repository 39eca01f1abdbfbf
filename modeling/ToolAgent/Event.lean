/-
What an agent shows to the outside: the chat messages agents pass to each other,
the events of a turn, and the response that ends it.
-/
import ToolAgent.Message
import ToolAgent.Json.Value

namespace ToolAgent

/-- A piece of memory, with free-form data about it. -/
structure MemoryItem where
  content : String
  metadata : Option Json
  deriving Repr, Inhabited

def MemoryItem.ofText (content : String) : MemoryItem := ⟨content, none⟩

inductive ChatMessage where
  | text (content source : String) (usage : Option Usage)
  | multiModal (content : List ContentPart) (source : String)
  /-- The results of tool calls, put into words by a template. -/
  | toolCallSummary (content source : String)
  /-- Control passes to another agent. -/
  | handoff (content target source : String)
  deriving DecidableEq, Repr, Inhabited

namespace ChatMessage

inductive Kind where
  | text
  | multiModal
  | toolCallSummary
  | handoff
  deriving DecidableEq, Repr, Inhabited

def kind : ChatMessage → Kind
  | .text .. => .text
  | .multiModal .. => .multiModal
  | .toolCallSummary .. => .toolCallSummary
  | .handoff .. => .handoff

def source : ChatMessage → String
  | .text _ source _ | .multiModal _ source | .toolCallSummary _ source | .handoff _ _ source => source

/-- The message as content of a user. -/
def userContent : ChatMessage → UserContent
  | .text content _ _ | .toolCallSummary content _ | .handoff content _ _ => .text content
  | .multiModal parts _ => .multiModal parts

def contentText (m : ChatMessage) : String := m.userContent.asText

/-- The message as an agent stores it among its inputs: always a user's. -/
def stored (m : ChatMessage) : Message := .user m.userContent m.source

end ChatMessage

/-- What happens within a turn. -/
inductive Event where
  | memoryQuery (items : List MemoryItem) (source : String)
  | toolCallRequest (calls : List ToolCall) (source : String) (usage : Option Usage)
  /-- All results of a batch, in the order of its calls. -/
  | toolCallExecution (results : List ToolResult) (source : String)
  deriving Repr, Inhabited

structure Response where
  chatMessage : ChatMessage
  /-- The events of the turn, in order. -/
  innerMessages : List Event
  deriving Repr, Inhabited

end ToolAgent
