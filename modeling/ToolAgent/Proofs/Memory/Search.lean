/-
What a notebook finds.

Entries are told apart by their places, for two may hold the same. The places of those that share a
word with the query are ranked (`ranked`): by the words they share and, since sorting keeps the order
of equals (`filter_byScore`), by age. What is found is the beginning of that ranking.
-/
import Mathlib.Data.Finset.Card
import Mathlib.Data.List.FinRange
import ToolAgent.Memory

namespace ToolAgent

/-! ## Sorting by a score -/

section ByScore

variable {α : Type} {score : α → Nat}

/-- Those of a higher score first, equals as they were. -/
def byScore (score : α → Nat) (l : List α) : List α := l.mergeSort fun a b => score b ≤ score a

theorem byScore_perm (l : List α) : (byScore score l).Perm l := List.mergeSort_perm l _

theorem score_trans (a b c : α) (hab : decide (score b ≤ score a) = true)
    (hbc : decide (score c ≤ score b) = true) : decide (score c ≤ score a) = true := by
  simp only [decide_eq_true_eq] at hab hbc ⊢
  omega

theorem score_total (a b : α) : (decide (score b ≤ score a) || decide (score a ≤ score b)) = true := by
  simp only [Bool.or_eq_true, decide_eq_true_eq]
  omega

theorem byScore_pairwise (l : List α) : (byScore score l).Pairwise fun a b => score b ≤ score a := by
  have h : (byScore score l).Pairwise fun a b => decide (score b ≤ score a) = true :=
    List.pairwise_mergeSort score_trans score_total l
  exact h.imp fun hab => of_decide_eq_true hab

/-- Those of one score stand as they stood. -/
theorem filter_byScore (l : List α) (s : Nat) :
    (byScore score l).filter (score · = s) = l.filter (score · = s) := by
  -- They are in order already, so sorting all leaves them as a sublist.
  have hordered : (l.filter (score · = s)).Pairwise fun a b => decide (score b ≤ score a) = true := by
    rw [List.pairwise_filter]
    refine List.pairwise_of_forall fun a b ha hb => ?_
    simp only [decide_eq_true_eq] at ha hb ⊢
    omega
  have hsub : (l.filter (score · = s)).Sublist (byScore score l) :=
    List.sublist_mergeSort score_trans score_total hordered List.filter_sublist
  have hfilter := hsub.filter (score · = s)
  rw [List.filter_filter] at hfilter
  simp only [Bool.and_self] at hfilter
  exact (hfilter.eq_of_length ((byScore_perm l).filter _).length_eq.symm).symm

/-- Sorted by score, and among equals by what they were in order by before. -/
theorem byScore_pairwise_lex {before : α → α → Prop} {l : List α} (h : l.Pairwise before) :
    (byScore score l).Pairwise fun a b => score b < score a ∨ score b = score a ∧ before a b := by
  rw [List.pairwise_iff_forall_sublist]
  intro a b hab
  have hle : score b ≤ score a := List.pairwise_iff_forall_sublist.1 (byScore_pairwise l) hab
  by_cases heq : score b = score a
  · have hsub := hab.filter (score · = score a)
    rw [filter_byScore] at hsub
    simp only [heq, decide_true, List.filter_cons_of_pos, List.filter_nil] at hsub
    exact .inr ⟨heq, List.pairwise_iff_forall_sublist.1 (h.filter _) hsub⟩
  · exact .inl (by omega)

end ByScore

/-! ## Words -/

theorem eraseDups_nodup {α : Type} [DecidableEq α] : ∀ xs : List α, xs.eraseDups.Nodup
  | [] => by simp
  | x :: xs => by
    rw [List.eraseDups_cons, List.nodup_cons]
    refine ⟨?_, eraseDups_nodup _⟩
    simp
termination_by xs => xs.length
decreasing_by exact Nat.lt_succ_of_le (List.length_filter_le _ _)

theorem tokens_nodup (text : String) : (tokens text).Nodup := eraseDups_nodup _

namespace Notebook

theorem overlap_eq_card {query words : List String} (h : query.Nodup) :
    overlap query words = (query.toFinset ∩ words.toFinset).card := by
  have hfilter : query.toFinset ∩ words.toFinset = (query.filter (words.contains ·)).toFinset := by
    ext w
    simp
  rw [hfilter, List.toFinset_card_of_nodup (h.filter _), overlap]

/-! ## Ranking -/

/-- The words of a query that an entry has. -/
def shared (query : String) (entry : MemoryItem × List String) : Finset String :=
  (tokens query).toFinset ∩ entry.2.toFinset

variable (m : Notebook) (query : String)

/-- One place comes before another: its entry shares more words, or as many and is older. -/
def Before (i j : Fin m.entries.length) : Prop :=
  (shared query m.entries[j]).card < (shared query m.entries[i]).card ∨
    (shared query m.entries[j]).card = (shared query m.entries[i]).card ∧ i < j

/-- The places whose entries share a word with the query, oldest first. -/
def matching : List (Fin m.entries.length) :=
  (List.finRange m.entries.length).filter fun i => (shared query m.entries[i]).Nonempty

def ranked : List (Fin m.entries.length) := byScore (fun i => (shared query m.entries[i]).card) (m.matching query)

variable {m query}

theorem Before.ne {i j : Fin m.entries.length} (h : m.Before query i j) : i ≠ j := by
  rintro rfl
  rcases h with h | ⟨-, h⟩
  · exact Nat.lt_irrefl _ h
  · exact lt_irrefl _ h

theorem length_matching : (m.matching query).length = m.entries.countP fun entry => (shared query entry).Nonempty := by
  conv_rhs => rw [← List.map_getElem_finRange m.entries, List.countP_map]
  rw [matching, ← List.countP_eq_length_filter]
  rfl

theorem mem_ranked {i : Fin m.entries.length} : i ∈ m.ranked query ↔ (shared query m.entries[i]).Nonempty := by
  rw [ranked, (byScore_perm _).mem_iff]
  simp [matching]

theorem ranked_pairwise : (m.ranked query).Pairwise (m.Before query) :=
  byScore_pairwise_lex ((List.pairwise_lt_finRange _).filter _)

/-- What is found stands at the first places of the ranking. -/
theorem search_eq : m.search query = ((m.ranked query).take m.maxResults).map fun i => m.entries[i].1 := by
  -- An entry with its score is read off its place, before sorting as well as behind it.
  let scored : Fin m.entries.length → MemoryItem × Nat := fun i => (m.entries[i].1, (shared query m.entries[i]).card)
  have hscored : m.entries.map (fun entry => (entry.1, overlap (tokens query) entry.2)) =
      (List.finRange m.entries.length).map scored := by
    conv_lhs => rw [← List.map_getElem_finRange m.entries, List.map_map]
    refine List.map_congr_left fun i _ => ?_
    simp only [Function.comp_apply, scored, shared, overlap_eq_card (tokens_nodup query)]
    rfl
  have hfilter : ((List.finRange m.entries.length).map scored).filter (0 < ·.2) = (m.matching query).map scored := by
    rw [List.filter_map, matching]
    refine congrArg (List.map scored) (List.filter_congr fun i _ => ?_)
    simp [scored, Finset.card_pos]
  have hsort : ((m.matching query).map scored).mergeSort (fun a b => b.2 ≤ a.2) = (m.ranked query).map scored := by
    rw [ranked, byScore]
    exact (List.map_mergeSort (f := scored) fun _ _ _ _ => rfl).symm
  simp only [search, hscored, hfilter, hsort]
  rw [← List.map_take, List.map_map]
  rfl

variable (m query)

/-- Places of a notebook in the order in which a search is to give their entries, as many as it may. -/
structure Ranks (places : List (Fin m.entries.length)) : Prop where
  /-- No entry is given that shares no word with the query. -/
  shares : ∀ i ∈ places, (shared query m.entries[i]).Nonempty
  ordered : places.Pairwise (m.Before query)
  nodup : places.Nodup
  /-- No entry is left out for one that comes behind it. -/
  first : ∀ i ∈ places, ∀ j ∉ places, (shared query m.entries[j]).Nonempty → m.Before query i j
  length : places.length = min m.maxResults (m.entries.countP fun entry => (shared query entry).Nonempty)

/-- **A search gives the best entries, best first.** They are the entries at places that are ranked:
those that share words with the query, more of them first and the older first among equals, each once
and up to the number that is asked for. -/
theorem search_ranks : ∃ places, m.Ranks query places ∧ m.search query = places.map fun i => m.entries[i].1 := by
  have hsplit : ((m.ranked query).take m.maxResults ++ (m.ranked query).drop m.maxResults).Pairwise (m.Before query) := by
    rw [List.take_append_drop]
    exact ranked_pairwise
  obtain ⟨hordered, -, hfirst⟩ := List.pairwise_append.1 hsplit
  refine ⟨_, ⟨fun i hi => ?_, hordered, hordered.imp fun h => h.ne, fun i hi j hj hshares => ?_, ?_⟩, search_eq⟩
  · exact mem_ranked.1 (List.mem_of_mem_take hi)
  · -- A place that is not among the first of the ranking is among the others.
    have hmem : j ∈ (m.ranked query).take m.maxResults ++ (m.ranked query).drop m.maxResults := by
      rw [List.take_append_drop]
      exact mem_ranked.2 hshares
    obtain htake | hdrop := List.mem_append.1 hmem
    · exact absurd htake hj
    · exact hfirst i hi j hdrop
  · rw [List.length_take, ranked, (byScore_perm _).length_eq, length_matching]

end Notebook
end ToolAgent
