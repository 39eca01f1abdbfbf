/-
Queries that find the same.

What a search finds hangs on the set of the words that count in a query (`search_congr`), and a word
counts in lower case and without what is at its ends that is neither letter nor number (`bare`). So it
finds the same when a query's words are put in another order, come again, or change in these respects
(`Change`), and when other blanks stand around them (`Text.Spells`).
-/
import Mathlib
import ToolAgent.Proofs.Memory.Covered
import ToolAgent.Proofs.Text.Ascii

namespace ToolAgent

/-! ## Words as they count -/

/-- A word as it counts for searching. -/
def bare (w : List Char) : List Char := Text.lower (trimWord w)

theorem mem_tokens {text token : String} : token ∈ tokens text ↔
    ∃ b ∈ (Text.words text.toList).map bare, 1 < b.length ∧ String.ofList b = token := by
  have hbare : (fun w => Text.lower (trimWord w)) = bare := rfl
  simp only [tokens, hbare, List.mem_eraseDups, List.mem_map (f := String.ofList), List.mem_filter,
    decide_eq_true_eq, and_assoc]

theorem trimWord_eq_ends (w : List Char) : trimWord w = Text.ends (!Text.isAlphanumeric ·) w := rfl

theorem bare_map_toLower (w : List Char) : bare (w.map Char.toLower) = bare w := by
  have hclass (c : Char) : (!Text.isAlphanumeric c.toLower) = !Text.isAlphanumeric c := by
    rw [Text.isAlphanumeric_toLower]
  rw [bare, bare, trimWord_eq_ends, trimWord_eq_ends, Text.ends_map hclass, Text.lower_map_toLower]

theorem bare_punctuated {before after : List Char} (w : List Char) (hbefore : ∀ c ∈ before, Text.isPunctuation c = true)
    (hafter : ∀ c ∈ after, Text.isPunctuation c = true) : bare (before ++ w ++ after) = bare w := by
  have hcut {cs : List Char} (hcs : ∀ c ∈ cs, Text.isPunctuation c = true) :
      ∀ c ∈ cs, (!Text.isAlphanumeric c) = true := by
    intro c hc
    rw [Text.isAlphanumeric_of_isPunctuation (hcs c hc), Bool.not_false]
  rw [bare, bare, trimWord_eq_ends, trimWord_eq_ends, Text.ends_append w (hcut hbefore) (hcut hafter)]

/-! ## Other words for the same -/

/-- A word with punctuation put before or behind it. -/
def Punctuates (w w' : List Char) : Prop :=
  ∃ before after, w' = before ++ w ++ after ∧
    (∀ c ∈ before, Text.isPunctuation c = true) ∧ ∀ c ∈ after, Text.isPunctuation c = true

/-- The same word but for the case of its letters of ASCII. -/
def Recases (w w' : List Char) : Prop := w'.map Char.toLower = w.map Char.toLower

/-- A change of a query's words that is not to matter. -/
inductive Change : List (List Char) → List (List Char) → Prop
  /-- The words are as they were; only the blanks may be others. -/
  | respaced {ws} : Change ws ws
  | reordered {ws ws'} : ws.Perm ws' → Change ws ws'
  | repeated {ws ws'} : ws.Sublist ws' → ws' ⊆ ws → Change ws ws'
  | recased {ws ws'} : List.Forall₂ Recases ws ws' → Change ws ws'
  | punctuated {ws ws'} : List.Forall₂ Punctuates ws ws' → Change ws ws'

/-- A query arises from another by one change, with any blanks around its words. -/
def Rephrases (query query' : String) : Prop :=
  ∃ ws ws', Text.Spells ws query.toList ∧ Text.Spells ws' query'.toList ∧ Change ws ws'

theorem map_bare_eq {r : List Char → List Char → Prop} (hbare : ∀ {w w'}, r w w' → bare w' = bare w)
    {ws ws' : List (List Char)} (h : List.Forall₂ r ws ws') : ws'.map bare = ws.map bare := by
  induction h with
  | nil => rfl
  | cons hw _ ih => rw [List.map_cons, List.map_cons, hbare hw, ih]

/-- A change leaves the words as they count. -/
theorem Change.mem_map_bare {ws ws' : List (List Char)} (h : Change ws ws') (b : List Char) :
    b ∈ ws'.map bare ↔ b ∈ ws.map bare := by
  cases h with
  | respaced => rfl
  | reordered hperm => exact (hperm.map bare).mem_iff.symm
  | repeated hsub hmem =>
    exact ⟨fun hb => List.map_subset bare hmem hb, fun hb => (hsub.map bare).subset hb⟩
  | recased hws =>
    have hbare {w w' : List Char} (hw : Recases w w') : bare w' = bare w := by
      rw [← bare_map_toLower w', hw, bare_map_toLower]
    rw [map_bare_eq hbare hws]
  | punctuated hws =>
    have hbare {w w' : List Char} (hw : Punctuates w w') : bare w' = bare w := by
      obtain ⟨before, after, rfl, hbefore, hafter⟩ := hw
      exact bare_punctuated w hbefore hafter
    rw [map_bare_eq hbare hws]

theorem Rephrases.mem_tokens_iff {query query' : String} (h : Rephrases query query') (token : String) :
    token ∈ tokens query' ↔ token ∈ tokens query := by
  obtain ⟨ws, ws', hws, hws', hchange⟩ := h
  rw [mem_tokens, mem_tokens, hws.words_eq, hws'.words_eq]
  simp only [hchange.mem_map_bare]

/-! ## Searches -/

namespace Notebook

/-- The set of a query's words is all that a search looks at. -/
theorem search_congr (m : Notebook) {query query' : String}
    (h : ∀ token, token ∈ tokens query' ↔ token ∈ tokens query) : m.search query' = m.search query := by
  have hset : (tokens query').toFinset = (tokens query).toFinset := by
    ext token
    simp only [List.mem_toFinset, h]
  have hshared : shared query' = shared query := by
    funext entry
    rw [shared, shared, hset]
  rw [search_eq, search_eq, ranked, ranked, matching, matching, hshared]

/-- **It does not matter how a query is put.** Whatever a notebook holds, it finds the same when the
words of the query are put in another order, when some come again, when letters of ASCII change their
case, when punctuation is put before or behind words, and when other blanks stand around them; and so
for any number of such changes. -/
theorem search_rephrased (m : Notebook) {query query' : String} (h : Relation.ReflTransGen Rephrases query query') :
    m.search query' = m.search query := by
  induction h with
  | refl => rfl
  | tail _ hstep ih => exact (m.search_congr hstep.mem_tokens_iff).trans ih

/-- A question put in five ways, each from the one before. -/
theorem weather_rephrased :
    weather.search "\tRAIN?  (it) will...\nrain!" = weather.search "Will it rain" ∧
      weather.search "Will it rain" = [.ofText "Will the rain stop?", .ofText "Rain!"] := by
  have hspells (query : String) : Text.Spells (Text.words query.toList) query.toList := Text.words_eq_iff.1 rfl
  have horder : Rephrases "Will it rain" "rain it Will" :=
    ⟨_, _, hspells _, hspells _, .reordered (by decide +kernel)⟩
  have hrepeat : Rephrases "rain it Will" "rain it Will rain" :=
    ⟨_, _, hspells _, hspells _, .repeated (by decide +kernel) (by decide +kernel)⟩
  have hcase : Rephrases "rain it Will rain" "RAIN it will rain" := by
    have hwords : Text.words "rain it Will rain".toList =
        ["rain".toList, "it".toList, "Will".toList, "rain".toList] := by decide +kernel
    have hwords' : Text.words "RAIN it will rain".toList =
        ["RAIN".toList, "it".toList, "will".toList, "rain".toList] := by decide +kernel
    exact ⟨_, _, Text.words_eq_iff.1 hwords, Text.words_eq_iff.1 hwords', .recased (by simp [Recases])⟩
  have hpunctuate : Rephrases "RAIN it will rain" "RAIN? (it) will... rain!" := by
    have hwords : Text.words "RAIN it will rain".toList =
        ["RAIN".toList, "it".toList, "will".toList, "rain".toList] := by decide +kernel
    have hwords' : Text.words "RAIN? (it) will... rain!".toList =
        ["RAIN?".toList, "(it)".toList, "will...".toList, "rain!".toList] := by decide +kernel
    have hmarks (cs : List Char) (h : cs.all Text.isPunctuation = true) : ∀ c ∈ cs, Text.isPunctuation c = true :=
      List.all_eq_true.1 h
    refine ⟨_, _, Text.words_eq_iff.1 hwords, Text.words_eq_iff.1 hwords', .punctuated ?_⟩
    exact .cons ⟨[], ['?'], rfl, hmarks _ (by decide +kernel), hmarks _ (by decide +kernel)⟩
      (.cons ⟨['('], [')'], rfl, hmarks _ (by decide +kernel), hmarks _ (by decide +kernel)⟩
      (.cons ⟨[], ['.', '.', '.'], rfl, hmarks _ (by decide +kernel), hmarks _ (by decide +kernel)⟩
      (.cons ⟨[], ['!'], rfl, hmarks _ (by decide +kernel), hmarks _ (by decide +kernel)⟩ .nil)))
  have hspace : Rephrases "RAIN? (it) will... rain!" "\tRAIN?  (it) will...\nrain!" := by
    have hsame : Text.words "\tRAIN?  (it) will...\nrain!".toList = Text.words "RAIN? (it) will... rain!".toList := by
      decide +kernel
    exact ⟨_, _, hspells _, Text.words_eq_iff.1 hsame, .respaced⟩
  refine ⟨search_rephrased weather ?_, by cbv⟩
  exact ((((Relation.ReflTransGen.single horder).tail hrepeat).tail hcase).tail hpunctuate).tail hspace

end Notebook
end ToolAgent
