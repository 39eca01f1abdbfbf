/-
The JSON form of messages. Fields are written in a fixed order, a variant's tag
first; usage that is absent is left out.
-/
import ToolAgent.Message
import ToolAgent.Json.Decoder

namespace ToolAgent

open Json (Decoder Form)

/-- A field that is left out when it is absent. -/
def Json.optionalField {α : Type} (name : String) (encode : α → Json) :
    Option α → List (String × Json)
  | none => []
  | some a => [(name, encode a)]

def Usage.toJson (u : Usage) : Json :=
  .object [("prompt_tokens", .int u.promptTokens.toNat),
    ("completion_tokens", .int u.completionTokens.toNat)]

def Usage.decoder : Decoder Usage :=
  Decoder.record "RequestUsage" <|
    .required "prompt_tokens" .word <|
    .required "completion_tokens" .word <|
    .done fun completion prompt => ⟨prompt, completion⟩

def ToolCall.toJson (c : ToolCall) : Json :=
  .object [("id", .string c.id), ("name", .string c.name), ("arguments", .string c.arguments)]

def ToolCall.decoder : Decoder ToolCall :=
  Decoder.record "ToolCallRequest" <|
    .required "id" .string <|
    .required "name" .string <|
    .required "arguments" .string <|
    .done fun arguments name id => ⟨id, name, arguments⟩

def Completion.toJson : Completion → Json
  | .text t => .object [("text", .string t)]
  | .toolCalls calls => .object [("tool_calls", .array (calls.map ToolCall.toJson))]

def Completion.decoder : Decoder Completion :=
  Decoder.keyed [
    ("text", Decoder.string.map .text),
    ("tool_calls", (Decoder.list ToolCall.decoder).map .toolCalls)]

def Inference.toJson (r : Inference) : Json :=
  .object [("content", r.content.toJson), ("usage", r.usage.toJson)]

def Inference.decoder : Decoder Inference :=
  Decoder.record "CreateResult" <|
    .required "content" Completion.decoder <|
    .required "usage" Usage.decoder <|
    .done fun usage content => ⟨content, usage⟩

def Image.toJson (i : Image) : Json :=
  .object [("mime_type", .string i.mimeType), ("data", .string i.data)]

def Image.decoder : Decoder Image :=
  Decoder.record "Image" <|
    .required "mime_type" .string <|
    .required "data" .string <|
    .done fun data mimeType => ⟨mimeType, data⟩

def ContentPart.toJson : ContentPart → Json
  | .text t => .object [("text", .string t)]
  | .image i => .object [("image", i.toJson)]

def ContentPart.decoder : Decoder ContentPart :=
  Decoder.keyed [
    ("text", Decoder.string.map .text),
    ("image", Image.decoder.map .image)]

def UserContent.toJson : UserContent → Json
  | .text t => .object [("text", .string t)]
  | .multiModal parts => .object [("multi_modal", .array (parts.map ContentPart.toJson))]

def UserContent.decoder : Decoder UserContent :=
  Decoder.keyed [
    ("text", Decoder.string.map .text),
    ("multi_modal", (Decoder.list ContentPart.decoder).map .multiModal)]

def ToolResult.toJson (r : ToolResult) : Json :=
  .object [("call_id", .string r.callId), ("content", .string r.content), ("is_error", .bool r.isError)]

def ToolResult.decoder : Decoder ToolResult :=
  Decoder.record "ToolExecutionResult" <|
    .required "call_id" .string <|
    .required "content" .string <|
    .defaulted "is_error" .bool false <|
    .done fun isError content callId => ⟨callId, content, isError⟩

def Message.toJson : Message → Json
  | .system content => .object [("type", .string "system"), ("content", .string content)]
  | .user content source =>
    .object [("type", .string "user"), ("content", content.toJson), ("source", .string source)]
  | .assistant content source usage =>
    .object ([("type", .string "assistant"), ("content", content.toJson), ("source", .string source)]
      ++ Json.optionalField "usage" Usage.toJson usage)
  | .toolResults results =>
    .object [("type", .string "function_execution_result"),
      ("content", .array (results.map ToolResult.toJson))]

def Message.decoder : Decoder Message :=
  Decoder.tagged "LlmMessage" <|
    .cons "system" "LlmMessage::System"
      (.required "content" .string <|
        .done fun content => .system content) <|
    .cons "user" "LlmMessage::User"
      (.required "content" UserContent.decoder <|
        .required "source" .string <|
        .done fun source content => .user content source) <|
    .cons "assistant" "LlmMessage::Assistant"
      (.required "content" Completion.decoder <|
        .required "source" .string <|
        .defaulted "usage" (.optional Usage.decoder) none <|
        .done fun usage source content => .assistant content source usage) <|
    .cons "function_execution_result" "LlmMessage::FunctionExecutionResult"
      (.required "content" (.list ToolResult.decoder) <|
        .done fun results => .toolResults results) <|
    .nil

def Transcript.toJson (t : Transcript) : Json :=
  .object [("messages", .array (t.messages.map Message.toJson))]

def Transcript.decoder : Decoder Transcript :=
  Decoder.record "ContextState" <|
    .required "messages" (.list Message.decoder) <|
    .done fun messages => ⟨messages⟩

end ToolAgent
