/-
What a window shows of the stored messages: an end of them, no longer than the
window is wide.

Leading results are not shown. That takes one message off the end at most, the
first; so of two or more that the window spans the last is always shown. A window
of width one that stands on results shows nothing.
-/
import ToolAgent.Context

namespace ToolAgent.Context

theorem dropOrphan_suffix (w : List Message) : dropOrphan w <:+ w := by
  cases w with
  | nil => exact List.suffix_rfl
  | cons m w =>
    rw [dropOrphan_cons]
    split
    · exact List.suffix_cons m w
    · exact List.suffix_rfl

theorem dropOrphan_getLast? {w : List Message} (h : 2 ≤ w.length) : (dropOrphan w).getLast? = w.getLast? := by
  match w, h with
  | m :: m' :: w, _ =>
    rw [dropOrphan_cons]
    split
    · simp only [List.getLast?_cons_cons]
    · rfl

/-- The model sees an end of the conversation. -/
theorem visible_suffix (c : Context) : c.visible <:+ c.messages := by
  unfold visible
  split
  · exact List.suffix_rfl
  · exact (dropOrphan_suffix _).trans (List.drop_suffix _ _)

theorem visible_unbounded {c : Context} (h : c.bufferSize? = none) : c.visible = c.messages := by
  obtain ⟨ms, window⟩ := c
  cases window with
  | all => rfl
  | last => cases h

theorem visible_length {c : Context} {n : Nat} (h : c.bufferSize? = some n) : c.visible.length ≤ n := by
  obtain ⟨ms, window⟩ := c
  cases window with
  | all => cases h
  | last size pos =>
    obtain rfl : size = n := by simpa [bufferSize?] using h
    have hl := (dropOrphan_suffix (ms.drop (ms.length - size))).length_le
    rw [List.length_drop] at hl
    simp only [visible]
    omega

/-- All that the window spans is shown, but for results at its start. -/
theorem visible_buffered {c : Context} {size : Nat} {pos : 0 < size} (h : c.window = .last size pos) :
    c.messages.drop (c.messages.length - size) = c.visible ∨
      ∃ results, c.messages.drop (c.messages.length - size) = .toolResults results :: c.visible := by
  obtain ⟨ms, window⟩ := c
  obtain rfl := h
  simp only [visible]
  cases ms.drop (ms.length - size) with
  | nil => exact .inl rfl
  | cons m w =>
    cases m with
    | toolResults results => exact .inr ⟨results, rfl⟩
    | _ => exact .inl rfl

/-- Unless the window is one message wide, the model sees the last of two or more messages. -/
theorem visible_getLast? {c : Context} (hb : c.bufferSize? ≠ some 1) (h : 2 ≤ c.messages.length) :
    c.visible.getLast? = c.messages.getLast? := by
  obtain ⟨ms, window⟩ := c
  cases window with
  | all => rfl
  | last size pos =>
    have hs : size ≠ 1 := by simpa [bufferSize?] using hb
    simp only at h
    have hl : 2 ≤ (ms.drop (ms.length - size)).length := by
      rw [List.length_drop]
      omega
    simp only [visible]
    rw [dropOrphan_getLast? hl, List.getLast?_drop, if_neg (by omega)]

/-- However wide the window is, the model sees the last message, unless it holds results. -/
theorem visible_getLast?_add (c : Context) {m : Message} (hm : m.isToolResults = false) :
    (c.add m).visible.getLast? = some m := by
  obtain ⟨ms, window⟩ := c
  cases window with
  | all => simp [visible, add]
  | last size pos =>
    have hdrop : (ms ++ [m]).drop ((ms ++ [m]).length - size) = ms.drop (ms.length + 1 - size) ++ [m] := by
      rw [List.length_append, List.length_singleton, List.drop_append_of_le_length (by omega)]
    simp only [visible, add, hdrop]
    cases ms.drop (ms.length + 1 - size) with
    | nil => simp [dropOrphan_cons, hm]
    | cons m' w => rw [dropOrphan_getLast? (by simp), List.getLast?_concat]

/-- A window of width one shows nothing when it stands on results. -/
theorem visible_nil {c : Context} {ms : List Message} {m : Message} (hb : c.bufferSize? = some 1)
    (h : c.messages = ms ++ [m]) (hm : m.isToolResults = true) : c.visible = [] := by
  obtain ⟨_, window⟩ := c
  obtain rfl := h
  cases window with
  | all => cases hb
  | last size pos =>
    obtain rfl : size = 1 := by simpa [bufferSize?] using hb
    simp [visible, dropOrphan_cons, hm]

end ToolAgent.Context
