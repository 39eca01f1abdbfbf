/-
Which values are loaded as states, and what comes of loading.

`SavedState.WrittenAs` says what a state may stand as, and the decoder accepts just that. So what
comes of loading a value can be told from the value (`Context.loadJson_of_written`).
-/
import ToolAgent.Proofs.Archive
import ToolAgent.Proofs.Conversation
import ToolAgent.Proofs.Message.Accepted

namespace ToolAgent

open Json (Decoder)
open Json.Decoder (Accepts)

namespace SavedState

/-- The kind and the version may be left out, and then are the own ones. -/
def WrittenAs (s : SavedState) (v : Json) : Prop :=
  ∃ kind version w, v.parts? ["type", "version", "llm_context"] = some [kind, version, some w] ∧
    (kind = some (.string s.kind) ∨ kind = none ∧ s.kind = ownKind) ∧
    (version = some (.string s.version) ∨ version = none ∧ s.version = ownVersion) ∧ s.transcript.WrittenAs w

theorem accepts : decoder.Accepts WrittenAs := by
  intro o ho v s
  obtain ⟨kind, version, transcript⟩ := s
  rw [decoder, Decoder.record_eq_ok_iff ho (by simp) (by simp)]
  simp [WrittenAs, Accepts.string o ho, Transcript.accepts o ho, and_assoc]

/-- The states of the own kind, by what a value has for its fields. -/
theorem own_writtenAs_iff {v : Json} : (∃ s : SavedState, s.WrittenAs v ∧ s.kind = ownKind) ↔
    ∃ kind version w t, v.parts? ["type", "version", "llm_context"] = some [kind, version, some w] ∧
      (kind = none ∨ kind = some (.string ownKind)) ∧ (version = none ∨ ∃ x, version = some (.string x)) ∧
      Transcript.WrittenAs t w := by
  constructor
  · rintro ⟨s, ⟨kind, version, w, hv, hkind, hversion, ht⟩, hown⟩
    refine ⟨kind, version, w, s.transcript, hv, ?_, ?_, ht⟩
    · rw [hown] at hkind
      exact hkind.symm.imp_left And.left
    · exact hversion.symm.imp And.left fun h => ⟨_, h⟩
  · rintro ⟨kind, version, w, t, hv, hkind, rfl | ⟨x, rfl⟩, ht⟩
    · exact ⟨⟨ownKind, ownVersion, t⟩,
        ⟨kind, none, w, hv, hkind.symm.imp_right fun h => ⟨h, rfl⟩, .inr ⟨rfl, rfl⟩, ht⟩, rfl⟩
    · exact ⟨⟨ownKind, x, t⟩, ⟨kind, _, w, hv, hkind.symm.imp_right fun h => ⟨h, rfl⟩, .inl rfl, ht⟩, rfl⟩

theorem readJson_eq_ok_iff {v : Json} {s : SavedState} : decoder.readJson v = .ok s ↔ s.WrittenAs v :=
  accepts .value nofun v s

end SavedState

namespace Context

variable {c : Context} {v : Json}

theorem loadJson_of_written {s : SavedState} (h : s.WrittenAs v) :
    c.loadJson v = if s.kind = SavedState.ownKind then .ok (c.load s.transcript) else .error (.otherKind s.kind) := by
  rw [loadJson, SavedState.ofJson, SavedState.readJson_eq_ok_iff.2 h]
  by_cases hk : s.kind = SavedState.ownKind
  · simp only [if_pos hk]
  · simp only [if_neg hk]

theorem loadJson_of_not_written (h : ∀ s : SavedState, ¬ s.WrittenAs v) :
    ∃ e, SavedState.decoder.readJson v = .error e ∧ c.loadJson v = .error (.malformed e) := by
  cases hread : SavedState.decoder.readJson v with
  | error e =>
    refine ⟨e, rfl, ?_⟩
    rw [loadJson, SavedState.ofJson, hread]
  | ok s => exact absurd (SavedState.readJson_eq_ok_iff.1 hread) (h s)

theorem loadJson_eq_ok_iff {c' : Context} : c.loadJson v = .ok c' ↔
    ∃ s : SavedState, s.WrittenAs v ∧ s.kind = SavedState.ownKind ∧ c' = c.load s.transcript := by
  constructor
  · intro h
    by_cases hv : ∃ s : SavedState, s.WrittenAs v
    · obtain ⟨s, hs⟩ := hv
      rw [loadJson_of_written hs] at h
      split at h
      next hk => exact ⟨s, hs, hk, (Except.ok.inj h).symm⟩
      next => cases h
    · obtain ⟨e, -, he⟩ := loadJson_of_not_written (c := c) (not_exists.1 hv)
      rw [he] at h
      cases h
  · rintro ⟨s, hs, hk, rfl⟩
    rw [loadJson_of_written hs, if_pos hk]

/-- What a context saves is loaded into it without a change. -/
theorem loadJson_saved :
    c.loadJson c.saveState.toJson = .ok c ∧ c.loadJson c.saveState.toJson.sorted = .ok c :=
  ⟨loadJson_of (c.saveState.reads.readJson (c.saveState.toJson_plain 0)) c,
    loadJson_of (c.saveState.reads.readJson_sorted (c.saveState.toJson_plain 0)) c⟩

end Context

namespace Conversation

variable {σ : Type}

theorem perform_loadJson_error {a : Agent} {client : Client σ} {c : Conversation σ} {v : Json} {e : StateError}
    (h : c.context.loadJson v = .error e) : c.perform a client (.loadJson v) = c := by
  simp only [perform, h]

theorem perform_loadJson_ok {a : Agent} {client : Client σ} {c : Conversation σ} {v : Json} {context : Context}
    (h : c.context.loadJson v = .ok context) : c.perform a client (.loadJson v) = c.withContext context := by
  simp only [perform, h]

/-- **A state is loaded as a whole or not at all.** Loading fails, and then the conversation goes on as if
nothing had been loaded; or what was read takes the place of all messages. It does not fail just
when the value has a transcript, a version or none, and the own kind or none. A value that is no
state is reported as such, whatever kind it names. And what was loaded is saved and loaded again
without a change. -/
theorem loadJson_exact (a : Agent) (client : Client σ) (c : Conversation σ) (v : Json) :
    ((∃ e, c.context.loadJson v = .error e ∧
        ∀ ops, c.run a client (.loadJson v :: ops) = c.run a client ops) ∨
      ∃ s : SavedState, s.WrittenAs v ∧
        c.context.loadJson v = .ok { c.context with messages := s.transcript.messages } ∧
        (c.perform a client (.loadJson v)).context = { c.context with messages := s.transcript.messages }) ∧
    ((∃ context, c.context.loadJson v = .ok context) ↔
      ∃ kind version w t, v.parts? ["type", "version", "llm_context"] = some [kind, version, some w] ∧
        (kind = none ∨ kind = some (.string SavedState.ownKind)) ∧
        (version = none ∨ ∃ x, version = some (.string x)) ∧ Transcript.WrittenAs t w) ∧
    ((∀ s : SavedState, ¬ s.WrittenAs v) →
      ∃ e, SavedState.decoder.readJson v = .error e ∧ c.context.loadJson v = .error (.malformed e)) ∧
    (∀ s : SavedState, s.WrittenAs v → s.kind ≠ SavedState.ownKind →
      c.context.loadJson v = .error (.otherKind s.kind)) ∧
    ∀ context, c.context.loadJson v = .ok context →
      context.loadJson context.saveState.toJson = .ok context ∧
      context.loadJson context.saveState.toJson.sorted = .ok context := by
  refine ⟨?_, ?_, Context.loadJson_of_not_written, fun s hs hk => ?_, fun context _ => context.loadJson_saved⟩
  · cases h : c.context.loadJson v with
    | error e =>
      refine .inl ⟨e, rfl, fun ops => ?_⟩
      rw [run, List.foldl_cons, perform_loadJson_error h]
      rfl
    | ok context =>
      obtain ⟨s, hs, -, rfl⟩ := Context.loadJson_eq_ok_iff.1 h
      refine .inr ⟨s, hs, rfl, ?_⟩
      rw [perform_loadJson_ok h]
      rfl
  · rw [← SavedState.own_writtenAs_iff]
    simp only [Context.loadJson_eq_ok_iff]
    exact ⟨fun ⟨_, s, hs, hk, _⟩ => ⟨s, hs, hk⟩, fun ⟨s, hs, hk⟩ => ⟨_, s, hs, hk, rfl⟩⟩
  · rw [Context.loadJson_of_written hs, if_neg hk]

end Conversation

end ToolAgent
