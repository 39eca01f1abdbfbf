/-
What can go wrong, by cause, and how it is put into words. A tool call that
fails is none of these: its error goes back to the model as a result.
-/
import ToolAgent.Registry
import ToolAgent.Json.Mismatch

namespace ToolAgent

/-- What a collaborator that broke down left behind. -/
inductive Payload where
  | text (text : String)
  | other
  deriving DecidableEq, Repr, Inhabited

def Payload.message : Payload → String
  | .text t => t
  | .other => "turn panicked"

/-- Why a model gives no answer. -/
inductive ClientError where
  | request (message : String)
  | invalidResponse (message : String)
  | exhausted
  | cancelled
  deriving DecidableEq, Repr, Inhabited

def ClientError.message : ClientError → String
  | .request message => "Request failed: " ++ message
  | .invalidResponse message => "Invalid response: " ++ message
  | .exhausted => "No more scripted responses"
  | .cancelled => "Request cancelled"

/-- Why an agent cannot be built. -/
inductive ConfigurationError where
  | toolsUnsupported
  | handoffsUnsupported
  | names (clash : NameClash)
  | emptyBuffer
  deriving DecidableEq, Repr

def ConfigurationError.message : ConfigurationError → String
  | .toolsUnsupported => "The model does not support function calling."
  | .handoffsUnsupported =>
    "The model does not support function calling, which is needed for handoffs."
  | .names clash => clash.message
  | .emptyBuffer => "context.buffer_size must be at least 1"

/-- Why a saved state cannot be loaded. -/
inductive StateError where
  | malformed (e : Json.DecodeError)
  | otherKind (kind : String)
  deriving DecidableEq, Repr

def StateError.message : StateError → String
  | .malformed e => e.message
  | .otherKind kind => "Unexpected state type: " ++ kind

inductive AgentError where
  | configuration (e : ConfigurationError)
  /-- Pictures for a model that does not see them. -/
  | noVision
  | client (e : ClientError)
  | memory (provider message : String)
  | cancelled
  /-- The second inference asked for so many tool calls instead of giving text. -/
  | reflectionRequestedTools (count : Nat)
  | state (e : StateError)
  | internal (message : String)
  deriving DecidableEq, Repr

def AgentError.message : AgentError → String
  | .configuration e => "Configuration error: " ++ e.message
  | .noVision => "Capability mismatch: The model does not support vision."
  | .client e => "LLM error: " ++ e.message
  | .memory provider message =>
    "Memory error: Memory provider '" ++ provider ++ "' failed: " ++ message
  | .cancelled => "Cancelled"
  | .reflectionRequestedTools count =>
    "Reflection round requested " ++ toString count ++ " tool call(s) instead of a text answer"
  | .state e => "State error: " ++ e.message
  | .internal message => "Internal error: " ++ message

end ToolAgent
