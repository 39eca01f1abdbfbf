/-
What a conversation is made of: the messages an agent stores and sends to its
model, and what the model answers.
-/
namespace ToolAgent

/-- Tokens that one inference used. -/
structure Usage where
  promptTokens : UInt64
  completionTokens : UInt64
  deriving DecidableEq, Repr, Inhabited

def Usage.none : Usage := ⟨0, 0⟩

def Usage.total (u : Usage) : Nat := u.promptTokens.toNat + u.completionTokens.toNat

/-- A tool call that a model asks for. The arguments are JSON text, read only when
the call is executed. -/
structure ToolCall where
  id : String
  name : String
  arguments : String
  deriving DecidableEq, Repr, Inhabited

/-- A model answers with text, or with the tools it wants called. -/
inductive Completion where
  | text (text : String)
  | toolCalls (calls : List ToolCall)
  deriving DecidableEq, Repr, Inhabited

/-- One answer of a model. -/
structure Inference where
  content : Completion
  usage : Usage
  deriving DecidableEq, Repr, Inhabited

/-- Base64 data of a picture and its media type. -/
structure Image where
  mimeType : String
  data : String
  deriving DecidableEq, Repr, Inhabited

inductive ContentPart where
  | text (text : String)
  | image (image : Image)
  deriving DecidableEq, Repr, Inhabited

inductive UserContent where
  | text (text : String)
  | multiModal (parts : List ContentPart)
  deriving DecidableEq, Repr, Inhabited

/-- A part as text; a picture has a stand-in. -/
def ContentPart.asText : ContentPart → String
  | .text t => t
  | .image _ => "<image>"

/-- The text of all parts, a line each. -/
def UserContent.asText : UserContent → String
  | .text t => t
  | .multiModal parts => "\n".intercalate (parts.map ContentPart.asText)

def UserContent.isMultiModal : UserContent → Bool
  | .text _ => false
  | .multiModal _ => true

/-- What came of a tool call. -/
structure ToolResult where
  callId : String
  content : String
  isError : Bool
  deriving DecidableEq, Repr, Inhabited

/-- A stored message. The results of one batch of tool calls are one message. -/
inductive Message where
  | system (content : String)
  | user (content : UserContent) (source : String)
  | assistant (content : Completion) (source : String) (usage : Option Usage)
  | toolResults (results : List ToolResult)
  deriving DecidableEq, Repr, Inhabited

def Message.isToolResults : Message → Bool
  | .toolResults _ => true
  | _ => false

/-- A message of the system or of a user. -/
def Message.isNote : Message → Bool
  | .system _ | .user _ _ => true
  | _ => false

/-- The text of a message of the user. -/
def Message.userText? : Message → Option String
  | .user content _ => some content.asText
  | _ => none

/-- The messages of a conversation, as saved. -/
structure Transcript where
  messages : List Message
  deriving DecidableEq, Repr, Inhabited

end ToolAgent
