/-
Messages are read as they were written.

Each type has two lemmas: what is written of it is plain, and is read as what it was. Those of a
record or of a variant name the lemmas of its fields, in the order of the decoder's slots, the last
slot innermost.
-/
import ToolAgent.Message.Codec
import ToolAgent.Proofs.Json.Decoding

namespace ToolAgent

open Json (Decoder Form)

/-! ## Fields that may be left out -/

namespace Json

variable {α β γ : Type} {fs : List (String × Json)} {name : String} {write : γ → Json} {x : Option γ}

/-- A field is absent when it was left out. -/
theorem Form.Fits.optionalField {d : Decoder β} {back : γ → Option β} {rest : Form (Option β → α)}
    {f : Option β → α} {a : α} (h : rest.Fits (fs ++ optionalField name write x) f) (hn : name ∉ fs.map (·.1))
    (hd : ∀ c ∈ x, (Decoder.optional d).Reads (write c) (back c)) (ha : f (x.bind back) = a) :
    (Form.defaulted name (.optional d) none rest).Fits (fs ++ optionalField name write x) a := by
  cases x with
  | none => exact h.absent (by simpa [Json.optionalField] using hn) ha
  | some c => exact h.defaulted (by simp [Json.optionalField]) (hd c rfl) ha

theorem Distinct.optionalField (h : (Json.object fs).Distinct) (hn : name ∉ fs.map (·.1))
    (hx : ∀ c ∈ x, (write c).Distinct) : (Json.object (fs ++ optionalField name write x)).Distinct := by
  cases x with
  | none => simpa [Json.optionalField] using h
  | some c =>
    obtain ⟨hk, hfs⟩ := distinct_object.1 h
    have hp : (fs ++ [(name, write c)]).Perm ((name, write c) :: fs) := List.perm_append_singleton _ _
    refine .object ((hp.map (·.1)).nodup_iff.2 (List.nodup_cons.2 ⟨hn, hk⟩)) fun f hf => ?_
    obtain rfl | hf := List.mem_cons.1 (hp.mem_iff.1 hf)
    · exact hx c rfl
    · exact hfs f hf

end Json

/-! ## What models answer -/

theorem Usage.toJson_plain (u : Usage) (k : Nat) : u.toJson.Plain (k + 1) := by
  simp [Usage.toJson, Json.Plain]

theorem Usage.reads (u : Usage) : Usage.decoder.Reads u.toJson u :=
  .record (by simp)
    (.required (.required .done (by simp) (.word _) rfl) (by simp) (.word _) rfl)

/-- Usage is left out when it is absent, and is absent when it was left out. -/
theorem Usage.fits {α : Type} {fs : List (String × Json)} {usage : Option Usage} {rest : Form (Option Usage → α)}
    {f : Option Usage → α} {a : α} (h : rest.Fits (fs ++ Json.optionalField "usage" toJson usage) f)
    (hn : "usage" ∉ fs.map (·.1)) (ha : f usage = a) :
    (Form.defaulted "usage" (.optional decoder) .none rest).Fits (fs ++ Json.optionalField "usage" toJson usage) a := by
  have hread : ∀ u ∈ usage, (Decoder.optional decoder).Reads u.toJson (some u) :=
    fun u _ => u.reads.optional (by simp [toJson])
  exact h.optionalField hn hread (by rw [Option.bind_fun_some, ha])

theorem ToolCall.toJson_plain (c : ToolCall) (k : Nat) : c.toJson.Plain (k + 1) := by
  simp [ToolCall.toJson, Json.Plain]

theorem ToolCall.reads (c : ToolCall) : ToolCall.decoder.Reads c.toJson c :=
  .record (by simp)
    (.required
      (.required (.required .done (by simp) (.string _) rfl) (by simp) (.string _) rfl)
      (by simp) (.string _) rfl)

theorem Completion.toJson_plain (c : Completion) (k : Nat) : c.toJson.Plain (k + 3) := by
  cases c with
  | text t => simp [Completion.toJson, Json.Plain]
  | toolCalls calls => simp [Completion.toJson, Json.Plain, ToolCall.toJson_plain]

theorem Completion.reads (c : Completion) : Completion.decoder.Reads c.toJson c := by
  cases c with
  | text t => exact .keyed rfl (.map (.string t) _)
  | toolCalls calls => exact .keyed rfl (.map (.list fun c _ => c.reads) _)

/-! ## What users say -/

theorem Image.toJson_plain (i : Image) (k : Nat) : i.toJson.Plain (k + 1) := by
  simp [Image.toJson, Json.Plain]

theorem Image.reads (i : Image) : Image.decoder.Reads i.toJson i :=
  .record (by simp)
    (.required (.required .done (by simp) (.string _) rfl) (by simp) (.string _) rfl)

theorem ContentPart.toJson_plain (p : ContentPart) (k : Nat) : p.toJson.Plain (k + 2) := by
  cases p with
  | text t => simp [ContentPart.toJson, Json.Plain]
  | image i => simp [ContentPart.toJson, Json.Plain, Image.toJson_plain]

theorem ContentPart.reads (p : ContentPart) : ContentPart.decoder.Reads p.toJson p := by
  cases p with
  | text t => exact .keyed rfl (.map (.string t) _)
  | image i => exact .keyed rfl (.map i.reads _)

theorem UserContent.toJson_plain (c : UserContent) (k : Nat) : c.toJson.Plain (k + 4) := by
  cases c with
  | text t => simp [UserContent.toJson, Json.Plain]
  | multiModal parts => simp [UserContent.toJson, Json.Plain, ContentPart.toJson_plain]

theorem UserContent.reads (c : UserContent) : UserContent.decoder.Reads c.toJson c := by
  cases c with
  | text t => exact .keyed rfl (.map (.string t) _)
  | multiModal parts => exact .keyed rfl (.map (.list fun p _ => p.reads) _)

/-! ## Messages -/

theorem ToolResult.toJson_plain (r : ToolResult) (k : Nat) : r.toJson.Plain (k + 1) := by
  simp [ToolResult.toJson, Json.Plain]

theorem ToolResult.reads (r : ToolResult) : ToolResult.decoder.Reads r.toJson r :=
  .record (by simp)
    (.required
      (.required (.defaulted .done (by simp) (.bool _) rfl) (by simp) (.string _) rfl)
      (by simp) (.string _) rfl)

theorem Message.toJson_plain (m : Message) (k : Nat) : m.toJson.Plain (k + 5) := by
  cases m with
  | system content => simp [Message.toJson, Json.Plain]
  | user content source => simp [Message.toJson, Json.Plain, UserContent.toJson_plain]
  | assistant content source usage =>
    cases usage with
    | none => simp [Message.toJson, Json.optionalField, Json.Plain, content.toJson_plain (k + 1)]
    | some u => simp [Message.toJson, Json.optionalField, Json.Plain, content.toJson_plain (k + 1), Usage.toJson_plain]
  | toolResults results => simp [Message.toJson, Json.Plain, ToolResult.toJson_plain]

theorem Message.reads (m : Message) : Message.decoder.Reads m.toJson m := by
  cases m with
  | system content =>
    exact .tagged (.here (by simp) (.required .done (by simp) (.string _) rfl))
  | user content source =>
    exact .tagged (.there (by decide) (.here (by simp)
      (.required (.required .done (by simp) (.string _) rfl) (by simp) content.reads rfl)))
  | assistant content source usage =>
    exact .tagged (.there (by decide) (.there (by decide) (.here (by simp)
      (.required
        (.required (Usage.fits .done (by simp) rfl) (by simp) (.string _) rfl)
        (by simp) content.reads rfl))))
  | toolResults results =>
    exact .tagged (.there (by decide) (.there (by decide) (.there (by decide) (.here (by simp)
      (.required .done (by simp) (.list fun r _ => r.reads) rfl)))))

theorem Transcript.toJson_plain (t : Transcript) (k : Nat) : t.toJson.Plain (k + 7) := by
  simp [Transcript.toJson, Json.Plain, Message.toJson_plain]

theorem Transcript.reads (t : Transcript) : Transcript.decoder.Reads t.toJson t :=
  .record (by simp) (.required .done (by simp) (.list fun m _ => m.reads) rfl)

end ToolAgent
