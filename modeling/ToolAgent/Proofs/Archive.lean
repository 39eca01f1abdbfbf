/-
What is saved is loaded: from a file, from a text on one line, and from the JSON value of a state.

A file that was written is found again because nothing but itself has changed: the directories that
lead to it are there as before (`entry?_setEntry`).
-/
import ToolAgent.Archive
import ToolAgent.SavedState
import ToolAgent.Proofs.Message.Codec

namespace ToolAgent

/-! ## Files -/

namespace Files

variable {fs fs' : Files} {l m : Location} {e : Entry} {path text : String}

theorem lookup_filter {α β : Type} [BEq α] [LawfulBEq α] {p : α × β → Bool} {a : α} (h : ∀ b, p (a, b) = true)
    (xs : List (α × β)) : (xs.filter p).lookup a = xs.lookup a := by
  induction xs with
  | nil => rfl
  | cons x xs ih =>
    obtain ⟨k, b⟩ := x
    by_cases hk : a = k
    · subst hk
      rw [List.filter_cons_of_pos (h b), List.lookup_cons_self, List.lookup_cons_self]
    · rw [List.lookup_cons, beq_false_of_ne hk, ← ih]
      by_cases hp : p (k, b)
      · rw [List.filter_cons_of_pos hp, List.lookup_cons, beq_false_of_ne hk]
      · rw [List.filter_cons_of_neg hp]

theorem entry?_of_ne (hm : m ≠ []) : fs.entry? m = fs.entries.lookup m := if_neg hm

theorem entry?_setEntry (hm : m ≠ []) :
    Files.entry? (fs.setEntry l e) m = if m = l then some e else fs.entry? m := by
  rw [entry?_of_ne hm, entry?_of_ne hm, setEntry, List.lookup_cons]
  by_cases h : m = l
  · rw [if_pos h, beq_iff_eq.2 h]
  · rw [if_neg h, beq_false_of_ne h]
    exact lookup_filter (fun _ => decide_eq_true h) _

/-- A path leads where it led, as long as its directories are there. -/
theorem follow_mono (h : ∀ m, fs.entry? m = some .directory → fs'.entry? m = some .directory) :
    ∀ {parts : List String} {l m : Location}, fs.follow l parts = .ok m → fs'.follow l parts = .ok m
  | [], _, _, hf => hf
  | part :: rest, l, m, hf => by
    rw [follow] at hf ⊢
    cases hl : fs.entry? l with
    | none => simp [hl] at hf
    | some entry =>
      cases entry with
      | file => simp [hl] at hf
      | directory =>
        simp only [hl] at hf
        simp only [h l hl]
        split at hf
        next hd => rw [if_pos hd]; exact follow_mono h hf
        next hd =>
          rw [if_neg hd]
          split at hf
          next hu => rw [if_pos hu]; exact follow_mono h hf
          next hu =>
            rw [if_neg hu]
            split at hf
            next => cases hf
            next hn => rw [if_neg hn]; exact follow_mono h hf

theorem locate_mono (h : ∀ m, fs.entry? m = some .directory → fs'.entry? m = some .directory)
    (hh : fs'.here = fs.here) (hl : fs.locate path = .ok l) : fs'.locate path = .ok l := by
  unfold locate root at hl ⊢
  rw [hh]
  split at hl
  · cases hl
  split at hl
  · cases hl
  next hnul hempty =>
    rw [if_neg hnul, if_neg hempty]
    exact follow_mono h hl

/-- All that writing can do. -/
theorem write_ok (h : fs.write path text = .ok fs') :
    ∃ l, fs.locate path = .ok l ∧ fs.entry? l ≠ some .directory ∧ fs' = fs.setEntry l (.file text) := by
  unfold write at h
  cases hl : fs.locate path with
  | error e => simp [hl] at h
  | ok l =>
    simp only [hl] at h
    split at h
    · cases h
    next hdir => exact ⟨l, rfl, hdir, (Except.ok.inj h).symm⟩

/-- A file that was written holds what was written. -/
theorem find?_write (h : fs.write path text = .ok fs') : fs'.find? path = some (.file text) := by
  obtain ⟨l, hl, hdir, rfl⟩ := write_ok h
  have hroot : l ≠ [] := by
    rintro rfl
    exact hdir rfl
  -- The directories on the way are others than the place that is written.
  have hdirs : ∀ m, fs.entry? m = some .directory → Files.entry? (fs.setEntry l (.file text)) m = some .directory := by
    intro m hm
    by_cases hm' : m = []
    · subst hm'
      rfl
    · rw [entry?_setEntry hm', if_neg, hm]
      rintro rfl
      exact hdir hm
  have hlocate : (fs.setEntry l (.file text)).locate path = .ok l := locate_mono hdirs rfl hl
  simp [find?, hlocate, entry?_setEntry hroot]

theorem find?_save (h : fs.save path text = .ok fs') : fs'.find? path = some (.file text) := by
  unfold save at h
  split at h
  · cases h
  split at h
  · cases h
  · exact find?_write h

theorem read_of_find? (h : fs.find? path = some (.file text)) : fs.read path = .ok text := by
  unfold find? at h
  cases hl : fs.locate path with
  | error e => simp [hl] at h
  | ok l =>
    simp only [hl] at h
    simp [read, hl, h]

end Files

/-! ## Transcripts and states -/

theorem Transcript.ofText_text (t : Transcript) : ofText t.text = .ok t := by
  have hread : decoder.readText t.text = .ok t := t.reads.readText_pretty (t.toJson_plain 0) (by decide)
  rw [ofText, hread]

theorem Transcript.load_of_find? {t : Transcript} {fs : Files} {path : String}
    (h : fs.find? path = some (.file t.text)) : Transcript.load fs path = .ok t := by
  have hexists : fs.exists? path = true := by rw [Files.exists?, h]; rfl
  rw [load, if_pos hexists, Files.read_of_find? h]
  exact t.ofText_text

theorem Transcript.load_of_save {t : Transcript} {fs fs' : Files} {path : String} (h : t.save fs path = .ok fs') :
    Transcript.load fs' path = .ok t :=
  load_of_find? (Files.find?_save h)

namespace SavedState

theorem toJson_plain (s : SavedState) (k : Nat) : s.toJson.Plain (k + 8) := by
  simp [toJson, Json.Plain, Transcript.toJson_plain]

theorem reads (s : SavedState) : decoder.Reads s.toJson s :=
  .record (by simp)
    (.defaulted
      (.defaulted (.required .done (by simp) s.transcript.reads rfl) (by simp) (.string _) rfl)
      (by simp) (.string _) rfl)

/-- The own state of a transcript is loaded from every value that is read as it. -/
theorem ofJson_of {t : Transcript} {v : Json} (h : decoder.readJson v = .ok (of t)) : ofJson v = .ok (of t) := by
  simp only [ofJson, h]
  exact if_pos rfl

end SavedState

namespace Context

theorem loadJson_of {t : Transcript} {v : Json} (h : SavedState.decoder.readJson v = .ok (.of t)) (c : Context) :
    c.loadJson v = .ok { c with messages := t.messages } := by
  rw [loadJson, SavedState.ofJson_of h]
  rfl

/-- What a context holds is restored, whichever way it takes: saved to a file and loaded from it,
written on one line and read, or as the JSON value of a state, be its keys as written or sorted. Any
other context takes that in place of its own messages. -/
theorem restored (c : Context) :
    (∀ (fs fs' : Files) (path : String), c.save.save fs path = .ok fs' → Transcript.load fs' path = .ok c.save) ∧
      Transcript.decoder.readText c.save.toJson.compact = .ok c.save ∧
      ∀ other : Context,
        other.loadJson c.saveState.toJson = .ok { other with messages := c.messages } ∧
        other.loadJson c.saveState.toJson.sorted = .ok { other with messages := c.messages } := by
  refine ⟨fun _ _ _ h => Transcript.load_of_save h, ?_, fun other => ⟨?_, ?_⟩⟩
  · exact c.save.reads.readText_compact (c.save.toJson_plain 0) (by decide)
  · exact loadJson_of (c.saveState.reads.readJson (c.saveState.toJson_plain 0)) other
  · exact loadJson_of (c.saveState.reads.readJson_sorted (c.saveState.toJson_plain 0)) other

/-- A message with quotes, a line break and a control character, saved in the working directory. -/
theorem restored_quoted : let c : Context := ⟨[.user (.text "say \"hi\"\n\x07") "user"], .all⟩
    ∃ fs', c.save.save (.empty ["w"]) "state.json" = .ok fs' ∧ Transcript.load fs' "state.json" = .ok c.save := by
  intro c
  obtain ⟨fs', hsave⟩ : ∃ fs', c.save.save (.empty ["w"]) "state.json" = .ok fs' := ⟨_, rfl⟩
  exact ⟨fs', hsave, (restored c).1 _ fs' _ hsave⟩

end Context

end ToolAgent
