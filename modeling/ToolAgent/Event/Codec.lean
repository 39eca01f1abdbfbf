/-
The JSON form of chat messages, events and responses.
-/
import ToolAgent.Event
import ToolAgent.Message.Codec

namespace ToolAgent

open Json (Decoder)

def MemoryItem.toJson (m : MemoryItem) : Json :=
  .object ([("content", .string m.content)] ++ Json.optionalField "metadata" Json.sorted m.metadata)

def MemoryItem.decoder : Decoder MemoryItem :=
  Decoder.record "MemoryItem" <|
    .required "content" .string <|
    .defaulted "metadata" (.optional .json) none <|
    .done fun metadata content => ⟨content, metadata⟩

def ChatMessage.toJson : ChatMessage → Json
  | .text content source usage =>
    .object ([("type", .string "text"), ("content", .string content), ("source", .string source)]
      ++ Json.optionalField "usage" Usage.toJson usage)
  | .multiModal parts source =>
    .object [("type", .string "multi_modal"), ("content", .array (parts.map ContentPart.toJson)),
      ("source", .string source)]
  | .toolCallSummary content source =>
    .object [("type", .string "tool_call_summary"), ("content", .string content),
      ("source", .string source)]
  | .handoff content target source =>
    .object [("type", .string "handoff"), ("content", .string content), ("target", .string target),
      ("source", .string source)]

def ChatMessage.decoder : Decoder ChatMessage :=
  Decoder.tagged "ChatMessage" <|
    .cons "text" "ChatMessage::Text"
      (.required "content" .string <|
        .required "source" .string <|
        .defaulted "usage" (.optional Usage.decoder) none <|
        .done fun usage source content => .text content source usage) <|
    .cons "multi_modal" "ChatMessage::MultiModal"
      (.required "content" (.list ContentPart.decoder) <|
        .required "source" .string <|
        .done fun source parts => .multiModal parts source) <|
    .cons "tool_call_summary" "ChatMessage::ToolCallSummary"
      (.required "content" .string <|
        .required "source" .string <|
        .done fun source content => .toolCallSummary content source) <|
    .cons "handoff" "ChatMessage::Handoff"
      (.required "content" .string <|
        .required "target" .string <|
        .required "source" .string <|
        .done fun source target content => .handoff content target source) <|
    .nil

/-- The kinds by name. -/
def ChatMessage.Kind.names : List (String × ChatMessage.Kind) :=
  [("text", .text), ("multi_modal", .multiModal), ("tool_call_summary", .toolCallSummary),
    ("handoff", .handoff)]

def ChatMessage.Kind.name : ChatMessage.Kind → String
  | .text => "text"
  | .multiModal => "multi_modal"
  | .toolCallSummary => "tool_call_summary"
  | .handoff => "handoff"

def ChatMessage.Kind.toJson (k : ChatMessage.Kind) : Json := .string k.name

def ChatMessage.Kind.decoder : Decoder ChatMessage.Kind := Decoder.named ChatMessage.Kind.names

def Event.toJson : Event → Json
  | .memoryQuery items source =>
    .object [("type", .string "memory_query"), ("content", .array (items.map MemoryItem.toJson)),
      ("source", .string source)]
  | .toolCallRequest calls source usage =>
    .object ([("type", .string "tool_call_request"), ("content", .array (calls.map ToolCall.toJson)),
      ("source", .string source)] ++ Json.optionalField "usage" Usage.toJson usage)
  | .toolCallExecution results source =>
    .object [("type", .string "tool_call_execution"), ("content", .array (results.map ToolResult.toJson)),
      ("source", .string source)]

def Event.decoder : Decoder Event :=
  Decoder.tagged "AgentEvent" <|
    .cons "memory_query" "AgentEvent::MemoryQuery"
      (.required "content" (.list MemoryItem.decoder) <|
        .required "source" .string <|
        .done fun source items => .memoryQuery items source) <|
    .cons "tool_call_request" "AgentEvent::ToolCallRequest"
      (.required "content" (.list ToolCall.decoder) <|
        .required "source" .string <|
        .defaulted "usage" (.optional Usage.decoder) none <|
        .done fun usage source calls => .toolCallRequest calls source usage) <|
    .cons "tool_call_execution" "AgentEvent::ToolCallExecution"
      (.required "content" (.list ToolResult.decoder) <|
        .required "source" .string <|
        .done fun source results => .toolCallExecution results source) <|
    .nil

def Response.toJson (r : Response) : Json :=
  .object [("chat_message", r.chatMessage.toJson),
    ("inner_messages", .array (r.innerMessages.map Event.toJson))]

def Response.decoder : Decoder Response :=
  Decoder.record "Response" <|
    .required "chat_message" ChatMessage.decoder <|
    .required "inner_messages" (.list Event.decoder) <|
    .done fun inner chatMessage => ⟨chatMessage, inner⟩

end ToolAgent
