/-
Which values are read as messages.

What a message may stand as, said without a decoder: for each type, what a value has for its fields
(`Json.parts?`). Fields that may be left out, further fields and their order are in there; so the
decoders accept these values, and no others.
-/
import ToolAgent.Message.Codec
import ToolAgent.Proofs.Json.Accepted

namespace ToolAgent

open Json (Decoder)
open Json.Decoder (Accepts)

/-! ## What models say -/

def Usage.WrittenAs (u : Usage) (v : Json) : Prop :=
  v.parts? ["prompt_tokens", "completion_tokens"] =
    some [some (.int u.promptTokens.toNat), some (.int u.completionTokens.toNat)]

def ToolCall.WrittenAs (c : ToolCall) (v : Json) : Prop :=
  v.parts? ["id", "name", "arguments"] =
    some [some (.string c.id), some (.string c.name), some (.string c.arguments)]

def Completion.WrittenAs (c : Completion) (v : Json) : Prop :=
  match c with
  | .text t => v = .object [("text", .string t)]
  | .toolCalls calls => ∃ vs, v = .object [("tool_calls", .array vs)] ∧ List.Forall₂ ToolCall.WrittenAs calls vs

theorem Usage.accepts : Usage.decoder.Accepts Usage.WrittenAs := by
  intro o ho v u
  obtain ⟨prompt, completion⟩ := u
  rw [decoder, Decoder.record_eq_ok_iff ho (by simp) (by simp)]
  simp [WrittenAs, Accepts.word o ho, and_assoc]

theorem ToolCall.accepts : ToolCall.decoder.Accepts ToolCall.WrittenAs := by
  intro o ho v c
  obtain ⟨id, name, arguments⟩ := c
  rw [decoder, Decoder.record_eq_ok_iff ho (by simp) (by simp)]
  simp [WrittenAs, Accepts.string o ho, and_assoc]

theorem Completion.accepts : Completion.decoder.Accepts Completion.WrittenAs := by
  intro o ho v c
  rw [decoder, Decoder.keyed_eq_ok_iff ho (by simp)]
  cases c <;> simp [WrittenAs, (Accepts.string.map _) o ho, (ToolCall.accepts.list.map _) o ho]

/-! ## What users say -/

def Image.WrittenAs (i : Image) (v : Json) : Prop :=
  v.parts? ["mime_type", "data"] = some [some (.string i.mimeType), some (.string i.data)]

def ContentPart.WrittenAs (p : ContentPart) (v : Json) : Prop :=
  match p with
  | .text t => v = .object [("text", .string t)]
  | .image i => ∃ w, v = .object [("image", w)] ∧ i.WrittenAs w

def UserContent.WrittenAs (c : UserContent) (v : Json) : Prop :=
  match c with
  | .text t => v = .object [("text", .string t)]
  | .multiModal parts => ∃ vs, v = .object [("multi_modal", .array vs)] ∧ List.Forall₂ ContentPart.WrittenAs parts vs

theorem Image.accepts : Image.decoder.Accepts Image.WrittenAs := by
  intro o ho v i
  obtain ⟨mimeType, data⟩ := i
  rw [decoder, Decoder.record_eq_ok_iff ho (by simp) (by simp)]
  simp [WrittenAs, Accepts.string o ho, and_assoc]

theorem ContentPart.accepts : ContentPart.decoder.Accepts ContentPart.WrittenAs := by
  intro o ho v p
  rw [decoder, Decoder.keyed_eq_ok_iff ho (by simp)]
  cases p <;> simp [WrittenAs, (Accepts.string.map _) o ho, (Image.accepts.map _) o ho]

theorem UserContent.accepts : UserContent.decoder.Accepts UserContent.WrittenAs := by
  intro o ho v c
  rw [decoder, Decoder.keyed_eq_ok_iff ho (by simp)]
  cases c <;> simp [WrittenAs, (Accepts.string.map _) o ho, (ContentPart.accepts.list.map _) o ho]

/-! ## Messages -/

/-- A result that is not said to be an error is none. -/
def ToolResult.WrittenAs (r : ToolResult) (v : Json) : Prop :=
  ∃ isError, v.parts? ["call_id", "content", "is_error"] =
    some [some (.string r.callId), some (.string r.content), isError] ∧
      (isError = some (.bool r.isError) ∨ isError = none ∧ r.isError = false)

def Message.WrittenAs (m : Message) (v : Json) : Prop :=
  match m with
  | .system content => v.parts? ["type", "content"] = some [some (.string "system"), some (.string content)]
  | .user content source =>
    ∃ w, v.parts? ["type", "content", "source"] = some [some (.string "user"), some w, some (.string source)] ∧
      content.WrittenAs w
  | .assistant content source usage =>
    ∃ w used, v.parts? ["type", "content", "source", "usage"] =
      some [some (.string "assistant"), some w, some (.string source), used] ∧ content.WrittenAs w ∧
        match usage with
        | none => used = none ∨ used = some .null
        | some u => ∃ w, used = some w ∧ u.WrittenAs w
  | .toolResults results =>
    ∃ ws, v.parts? ["type", "content"] = some [some (.string "function_execution_result"), some (.array ws)] ∧
      List.Forall₂ ToolResult.WrittenAs results ws

def Transcript.WrittenAs (t : Transcript) (v : Json) : Prop :=
  ∃ ws, v.parts? ["messages"] = some [some (.array ws)] ∧ List.Forall₂ Message.WrittenAs t.messages ws

theorem ToolResult.accepts : ToolResult.decoder.Accepts ToolResult.WrittenAs := by
  intro o ho v r
  obtain ⟨callId, content, isError⟩ := r
  rw [decoder, Decoder.record_eq_ok_iff ho (by simp) (by simp)]
  simp [WrittenAs, Accepts.string o ho, Accepts.bool o ho, and_assoc, -Bool.exists_bool]

theorem Message.accepts : Message.decoder.Accepts Message.WrittenAs := by
  intro o ho v m
  have haside : Json.Origin.setAside ≠ .text := nofun
  -- Whatever tag a message has, its fields are read from what was set aside.
  have hstring := Accepts.string _ haside
  have huser := UserContent.accepts _ haside
  have hcompletion := Completion.accepts _ haside
  have husage := (Usage.accepts.optional fun u => by simp [Usage.WrittenAs, Json.parts?]) _ haside
  have hresults := ToolResult.accepts.list _ haside
  rw [decoder, Decoder.tagged_eq_ok_iff ho (by simp [Decoder.Tagged.tags]) (by simp)]
  cases m with
  | system content => simp [WrittenAs, hstring, huser, hcompletion, hresults, and_assoc]
  | user content source => simp [WrittenAs, hstring, huser, hcompletion, hresults, and_assoc]
  | assistant content source usage =>
    cases usage <;> simp [WrittenAs, hstring, huser, hcompletion, husage, hresults, and_assoc, or_comm]
  | toolResults results => simp [WrittenAs, hstring, huser, hcompletion, hresults, and_assoc]

theorem Transcript.accepts : Transcript.decoder.Accepts Transcript.WrittenAs := by
  intro o ho v t
  obtain ⟨messages⟩ := t
  rw [decoder, Decoder.record_eq_ok_iff ho (by simp) (by simp)]
  simp [WrittenAs, Message.accepts.list o ho]

end ToolAgent
