/-
What a notebook keeps.

A piece that is not blank goes behind the others, and as many of the last ones stay as the notebook may
hold (`add_entries`). Since the last of the last are the last of all (`rtake_rtake_concat`), what a
notebook holds after any number of pieces depends only on the pieces, blank ones aside (`addAll_keeps`).
Each is held with the words of its own text, for the blanks around a text add none to them.
-/
import ToolAgent.Memory
import ToolAgent.Proofs.Text.Words

namespace ToolAgent

/-! ## The last of a list -/

section Last

variable {α : Type}

theorem rtake_eq_self {l : List α} {n : Nat} (h : l.length ≤ n) : l.rtake n = l := by
  rw [List.rtake, Nat.sub_eq_zero_of_le h, List.drop_zero]

theorem length_rtake (l : List α) (n : Nat) : (l.rtake n).length = min n l.length := by
  rw [List.rtake, List.length_drop]
  omega

theorem rtake_rtake_of_le {m n : Nat} (h : m ≤ n) (l : List α) : (l.rtake n).rtake m = l.rtake m := by
  simp only [List.rtake_eq_reverse_take_reverse, List.reverse_reverse, List.take_take, Nat.min_eq_left h]

/-- The last ones stay the last ones when those before them are gone. -/
theorem rtake_rtake_concat {n : Nat} (h : 0 < n) (l : List α) (a : α) : (l.rtake n ++ [a]).rtake n = (l ++ [a]).rtake n := by
  obtain ⟨n, rfl⟩ := Nat.exists_eq_add_one_of_ne_zero (Nat.pos_iff_ne_zero.1 h)
  rw [List.rtake_concat_succ, List.rtake_concat_succ, rtake_rtake_of_le (Nat.le_succ n)]

theorem map_rtake {β : Type} (f : α → β) (l : List α) (n : Nat) : (l.rtake n).map f = (l.map f).rtake n := by
  simp only [List.rtake, List.map_drop, List.length_map]

end Last

theorem tokens_trim (text : String) : tokens (String.ofList (Text.trim text.toList)) = tokens text := by
  simp only [tokens, String.toList_ofList, Text.words_trim]

namespace Notebook

/-- A piece is worth noting. -/
def isNoted (item : MemoryItem) : Bool := !Text.isBlankText item.content

/-- A piece and the words of its own text. -/
def noted (item : MemoryItem) : MemoryItem × List String := (item, tokens item.content)

/-! ## One more piece -/

variable {m : Notebook} {item : MemoryItem}

theorem add_blank (h : isNoted item = false) : m.add item = m := by
  have htrim : Text.trim item.content.toList = [] := by
    rw [← Text.isBlankText_iff]
    simpa [isNoted] using h
  simp only [add, htrim]

theorem add_noted (h : isNoted item = true) :
    m.add item = { m with entries := (m.entries ++ [noted item]).rtake m.maxEntries } := by
  have htrim : Text.trim item.content.toList ≠ [] := by
    rw [Ne, ← Text.isBlankText_iff]
    simpa [isNoted] using h
  simp only [add, tokens_trim]
  rfl

/-- What one more piece does to the entries. -/
theorem add_entries : (m.add item).entries =
    if isNoted item then (m.entries ++ [noted item]).rtake m.maxEntries else m.entries := by
  cases h : isNoted item with
  | false => rw [add_blank h]; rfl
  | true => rw [add_noted h]; rfl

@[simp]
theorem add_maxEntries : (m.add item).maxEntries = m.maxEntries := by
  cases h : isNoted item with
  | false => rw [add_blank h]
  | true => rw [add_noted h]

@[simp]
theorem addAll_concat (items : List MemoryItem) : m.addAll (items ++ [item]) = (m.addAll items).add item := by
  simp [addAll]

@[simp]
theorem addAll_maxEntries (items : List MemoryItem) : (m.addAll items).maxEntries = m.maxEntries := by
  induction items using List.reverseRecOn with
  | nil => rfl
  | append_singleton items item ih => rw [addAll_concat, add_maxEntries, ih]

/-! ## Any number of pieces -/

/-- The last of the pieces that are worth noting, behind what a notebook held before. -/
theorem addAll_entries (hroom : 0 < m.maxEntries) (hfull : m.size ≤ m.maxEntries) (items : List MemoryItem) :
    (m.addAll items).entries = (m.entries ++ (items.filter isNoted).map noted).rtake m.maxEntries := by
  induction items using List.reverseRecOn with
  | nil => simpa [addAll] using (rtake_eq_self hfull).symm
  | append_singleton items item ih =>
    rw [addAll_concat, add_entries, addAll_maxEntries, ih]
    cases h : isNoted item with
    | false => simp [h]
    | true =>
      rw [if_pos rfl, rtake_rtake_concat hroom]
      simp [h]

/-- **A notebook keeps the last pieces that are not blank**, as many as its limit says, as they are, in
their order, and with the words of their own texts. So it never holds more, what a piece drives out is
older than all that stays, and a blank one drives out nothing. -/
theorem addAll_keeps (name : String) (maxResults limit : Nat) (items : List MemoryItem) (k : Nat) :
    let after (k : Nat) : Notebook := ((new name maxResults).limitedTo limit).addAll (items.take k)
    (after k).entries = (((items.take k).filter isNoted).rtake (max limit 1)).map noted ∧
    (after k).size = min (max limit 1) ((items.take k).countP isNoted) ∧
    ∀ item, items[k]? = some item →
      (isNoted item = true → (after (k + 1)).entries <:+ (after k).entries ++ [noted item]) ∧
      (isNoted item = false → after (k + 1) = after k) := by
  intro after
  have hroom : 0 < ((new name maxResults).limitedTo limit).maxEntries :=
    Nat.lt_of_lt_of_le Nat.one_pos (Nat.le_max_right limit 1)
  have hentries : (after k).entries = (((items.take k).filter isNoted).rtake (max limit 1)).map noted := by
    rw [map_rtake]
    exact addAll_entries hroom (Nat.zero_le _) _
  refine ⟨hentries, ?_, fun item hitem => ?_⟩
  · rw [size, hentries, List.length_map, length_rtake, List.countP_eq_length_filter]
  · have hnext : after (k + 1) = (after k).add item := by
      simp only [after, List.take_add_one, hitem, Option.toList_some, addAll_concat]
    rw [hnext]
    refine ⟨fun h => ?_, add_blank⟩
    rw [add_entries, if_pos h]
    exact List.drop_suffix _ _

end Notebook
end ToolAgent
