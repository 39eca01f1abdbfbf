/-
What a notebook finds for the words of a piece that it holds.

No entry shares more words with a query than the query has. So those that have them all, which cover
it, are at the beginning of the ranking, oldest first (`search_covering`). In every notebook an entry's
words are those of its own text (`Reachable.entry_eq`), so each entry covers the query that its text is.
-/
import ToolAgent.Proofs.Memory.Kept
import ToolAgent.Proofs.Memory.Search

namespace ToolAgent

section ByScore

variable {α : Type} {score : α → Nat}

/-- What is in order by score begins with all of the highest score there may be. -/
theorem eq_filter_top {top : Nat} {l : List α} (hordered : l.Pairwise fun a b => score b ≤ score a)
    (htop : ∀ a ∈ l, score a ≤ top) : l = l.filter (score · = top) ++ l.filter (score · ≠ top) := by
  induction l with
  | nil => rfl
  | cons a l ih =>
    obtain ⟨hfirst, hrest⟩ := List.pairwise_cons.1 hordered
    by_cases ha : score a = top
    · have htail := ih hrest fun b hb => htop b (List.mem_cons_of_mem a hb)
      simpa [List.filter_cons, ha] using htail
    · -- None behind it has the highest score either.
      have hlow : ∀ b ∈ l, ¬score b = top := by
        intro b hb
        have hle := hfirst b hb
        have hmax := htop a (by simp)
        omega
      have hnone : l.filter (score · = top) = [] := by simpa using hlow
      have hall : l.filter (score · ≠ top) = l := by simpa using hlow
      rw [List.filter_cons_of_neg (by simpa using ha), List.filter_cons_of_pos (by simpa using ha), hnone, hall]
      rfl

theorem byScore_top {top : Nat} {l : List α} (htop : ∀ a ∈ l, score a ≤ top) :
    byScore score l = l.filter (score · = top) ++ (byScore score l).filter (score · ≠ top) := by
  have hall : ∀ a ∈ byScore score l, score a ≤ top := fun a ha => htop a ((byScore_perm l).mem_iff.1 ha)
  conv_lhs => rw [eq_filter_top (byScore_pairwise l) hall, filter_byScore]

end ByScore

namespace Notebook

/-! ## Entries that cover a query -/

/-- An entry has all words of a query. -/
def Covers (query : String) (entry : MemoryItem × List String) : Prop := tokens query ⊆ entry.2

instance (query : String) : DecidablePred (Covers query) := fun entry => inferInstanceAs (Decidable (tokens query ⊆ entry.2))

variable {m : Notebook} {query : String}

theorem card_shared_le (entry : MemoryItem × List String) : (shared query entry).card ≤ (tokens query).toFinset.card :=
  Finset.card_le_card Finset.inter_subset_left

theorem card_shared_eq_iff {entry : MemoryItem × List String} :
    (shared query entry).card = (tokens query).toFinset.card ↔ Covers query entry := by
  have hsubset : (tokens query).toFinset ⊆ entry.2.toFinset ↔ Covers query entry := by
    simp only [Finset.subset_iff, List.mem_toFinset]
    rfl
  rw [← hsubset, shared]
  constructor
  · intro h
    exact Finset.inter_eq_left.1 (Finset.eq_of_subset_of_card_le Finset.inter_subset_left h.ge)
  · intro h
    rw [Finset.inter_eq_left.2 h]

/-- The ranking begins with the entries that cover the query, oldest first. -/
theorem ranked_covering (hquery : tokens query ≠ []) : ∃ others,
    m.ranked query = ((List.finRange m.entries.length).filter fun i => Covers query (m.entries.get i)) ++ others := by
  have hnonempty : 0 < (tokens query).toFinset.card := by
    rw [Finset.card_pos, List.toFinset_nonempty_iff]
    exact hquery
  have htop : ∀ i ∈ m.matching query, (shared query m.entries[i]).card ≤ (tokens query).toFinset.card :=
    fun i _ => card_shared_le _
  refine ⟨_, (byScore_top htop).trans (congrArg (· ++ _) ?_)⟩
  rw [matching, List.filter_filter]
  refine List.filter_congr fun i _ => ?_
  simp only [List.get_eq_getElem, Fin.getElem_fin, card_shared_eq_iff, ← Bool.decide_and, decide_eq_decide, and_iff_left_iff_imp]
  intro hcovers
  rw [← Finset.card_pos, card_shared_eq_iff.2 hcovers]
  exact hnonempty

theorem search_covering (hquery : tokens query ≠ []) :
    ((m.entries.filter (Covers query)).map (·.1)).take m.maxResults <+: m.search query := by
  obtain ⟨others, hranked⟩ := m.ranked_covering hquery
  have hfilter : (m.entries.filter (Covers query)).map (·.1) =
      ((List.finRange m.entries.length).filter fun i => Covers query (m.entries.get i)).map fun i => m.entries[i].1 := by
    conv_lhs => rw [← List.map_getElem_finRange m.entries, List.filter_map, List.map_map]
    rfl
  rw [search_eq, hranked, List.map_take, List.map_append, ← hfilter]
  exact (List.prefix_append ..).take _

/-! ## Notebooks as they come about -/

/-- A notebook after any pieces were added and limits set. -/
inductive Reachable : Notebook → Prop
  | new (name : String) (maxResults : Nat) : Reachable (new name maxResults)
  | limitedTo {m : Notebook} (n : Nat) : Reachable m → Reachable (m.limitedTo n)
  | add {m : Notebook} (item : MemoryItem) : Reachable m → Reachable (m.add item)

theorem Reachable.addAll (h : m.Reachable) (items : List MemoryItem) : (m.addAll items).Reachable := by
  induction items using List.reverseRecOn with
  | nil => exact h
  | append_singleton items item ih =>
    rw [addAll_concat]
    exact ih.add item

/-- An entry has the words of its own text. -/
theorem Reachable.entry_eq (h : m.Reachable) : ∀ entry ∈ m.entries, entry = noted entry.1 := by
  induction h with
  | new => simp [Notebook.new]
  | limitedTo n _ ih => exact ih
  | @add m item _ ih =>
    intro entry hentry
    rw [add_entries] at hentry
    split at hentry
    · have hmem : entry ∈ m.entries ++ [noted item] := List.mem_of_mem_drop hentry
      rcases List.mem_append.1 hmem with hmem | hmem
      · exact ih entry hmem
      · rw [List.mem_singleton.1 hmem]
        rfl
    · exact ih entry hentry

/-! ## A piece's own words -/

/-- A piece has all words that another has. -/
def Includes (item other : MemoryItem) : Prop := tokens other.content ⊆ tokens item.content

instance (item other : MemoryItem) : Decidable (Includes item other) :=
  inferInstanceAs (Decidable (tokens other.content ⊆ tokens item.content))

theorem Reachable.search_including (h : m.Reachable) {item : MemoryItem} (hwords : tokens item.content ≠ []) :
    ((m.entries.map (·.1)).filter (Includes · item)).take m.maxResults <+: m.search item.content := by
  have hfilter : (m.entries.map (·.1)).filter (Includes · item) =
      (m.entries.filter (Covers item.content)).map (·.1) := by
    rw [List.filter_map]
    refine congrArg (List.map _) (List.filter_congr fun entry hentry => ?_)
    rw [h.entry_eq entry hentry]
    rfl
  rw [hfilter]
  exact search_covering hwords

/-- **A piece that is held is found by its own words.** What comes first is the oldest piece that includes
all of them; the piece itself comes behind just those older ones that do, so it is the first unless there
is one, and it is found unless there are as many as a search may give. -/
theorem search_own (h : m.Reachable) (hresults : 1 ≤ m.maxResults) {item : MemoryItem} {older newer : List MemoryItem}
    (hheld : m.entries.map (·.1) = older ++ item :: newer) (hwords : tokens item.content ≠ []) :
    (∃ before first after rest, older ++ item :: newer = before ++ first :: after ∧ before <+: older ∧
      Includes first item ∧ (∀ other ∈ before, ¬Includes other item) ∧
      m.search item.content = first :: rest) ∧
    (older.countP (Includes · item) < m.maxResults →
      (m.search item.content)[older.countP (Includes · item)]? = some item) := by
  have hown : Includes item item := List.Subset.refl _
  obtain ⟨rest, hsearch⟩ := h.search_including hwords
  rw [hheld, List.filter_append, List.filter_cons_of_pos (by simpa using hown)] at hsearch
  constructor
  · obtain ⟨n, hn⟩ := Nat.exists_eq_add_of_le' hresults
    rw [hn] at hsearch
    cases hfilter : older.filter (Includes · item) with
    | nil =>
      have hnone : ∀ other ∈ older, ¬Includes other item := by simpa using hfilter
      rw [hfilter] at hsearch
      exact ⟨older, item, newer, _, rfl, List.prefix_refl _, hown, hnone, hsearch.symm⟩
    | cons first more =>
      obtain ⟨before, between, rfl, hnone, hfirst, -⟩ := List.filter_eq_cons_iff.1 hfilter
      rw [hfilter] at hsearch
      refine ⟨before, first, between ++ item :: newer, _, by simp, List.prefix_append _ _, by simpa using hfirst,
        by simpa using hnone, hsearch.symm⟩
  · intro hfew
    rw [List.countP_eq_length_filter] at hfew ⊢
    have hplace : (older.filter (Includes · item)).length < ((older.filter (Includes · item) ++
        item :: newer.filter (Includes · item)).take m.maxResults).length := by
      simp only [List.length_take, List.length_append, List.length_cons]
      omega
    rw [← hsearch, List.getElem?_append_left hplace, List.getElem?_take_of_lt hfew,
      List.getElem?_append_right (Nat.le_refl _), Nat.sub_self, List.getElem?_cons_zero]

/-- Holds the last two of its pieces. -/
def weather : Notebook :=
  ((new "weather" 2).limitedTo 2).addAll
    [.ofText "Snow falls.", .ofText "Will the rain stop?", .ofText " ", .ofText "Rain!"]

/-- The older piece includes the newer one, and so it comes first for the words of that. -/
theorem weather_own :
    ∃ rest, weather.search "Rain!" = .ofText "Will the rain stop?" :: rest ∧ rest[0]? = some (.ofText "Rain!") := by
  have hreachable : weather.Reachable := ((Reachable.new "weather" 2).limitedTo 2).addAll _
  have hheld : weather.entries.map (·.1) = [.ofText "Will the rain stop?"] ++ .ofText "Rain!" :: [] := rfl
  have hincludes : Includes (.ofText "Will the rain stop?") (.ofText "Rain!") := by decide +kernel
  have hwords : tokens (MemoryItem.ofText "Rain!").content ≠ [] := by decide +kernel
  have hcount : ([.ofText "Will the rain stop?"] : List MemoryItem).countP (Includes · (.ofText "Rain!")) = 1 := by
    decide +kernel
  obtain ⟨⟨before, first, after, rest, hplace, -, -, hnone, hsearch⟩, hown⟩ :=
    search_own hreachable (by decide) hheld hwords
  rw [hcount] at hown
  have hrain := hown (by decide)
  cases before with
  | nil =>
    obtain rfl : .ofText "Will the rain stop?" = first := (List.cons.inj hplace).1
    rw [hsearch, List.getElem?_cons_succ] at hrain
    exact ⟨rest, hsearch, hrain⟩
  | cons oldest before =>
    obtain rfl : .ofText "Will the rain stop?" = oldest := (List.cons.inj hplace).1
    exact absurd hincludes (hnone _ (by simp))

end Notebook
end ToolAgent
