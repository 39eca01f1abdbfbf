/-
The words of a text, and what is cut off at both ends of one.

`Spells` says which texts consist of some words: these in their order, blanks between them and
perhaps around. `Text.words` is the other way (`words_eq_iff`), so the words of a text are what counts
and the blanks are not. What is cut off at both ends is the same for texts and for words (`ends`): the
longest runs of what does not belong.
-/
import Mathlib.Data.List.DropRight
import ToolAgent.Text.Blank

namespace ToolAgent.Text

/-! ## Both ends of a text -/

section Ends

variable {α : Type} (p : α → Bool)

/-- A list without the runs at both its ends that fulfil a condition. -/
def ends (l : List α) : List α := (l.dropWhile p).rdropWhile p

theorem trim_eq_ends (cs : List Char) : trim cs = ends isBlank cs := rfl

variable {p}

theorem ends_append {before after : List α} (l : List α) (hbefore : ∀ a ∈ before, p a = true)
    (hafter : ∀ a ∈ after, p a = true) : ends p (before ++ l ++ after) = ends p l := by
  have hdrop : (before ++ l ++ after).dropWhile p = (l ++ after).dropWhile p := by
    rw [List.append_assoc, List.dropWhile_append_of_pos hbefore]
  have hback (xs : List α) : (xs ++ after).rdropWhile p = xs.rdropWhile p := by
    rw [List.rdropWhile, List.reverse_append, List.dropWhile_append_of_pos (by simpa using hafter), List.rdropWhile]
  rw [ends, ends, hdrop, List.dropWhile_append]
  split
  · -- Nothing of the list is left, and so nothing of what is behind it.
    rename_i hempty
    rw [List.isEmpty_iff.1 hempty, List.dropWhile_eq_nil_iff.2 hafter]
  · exact hback _

theorem exists_ends (l : List α) : ∃ before after, l = before ++ ends p l ++ after ∧
    (∀ a ∈ before, p a = true) ∧ ∀ a ∈ after, p a = true := by
  refine ⟨l.takeWhile p, (l.dropWhile p).rtakeWhile p, ?_, fun a ha => List.mem_takeWhile_imp ha,
    fun a ha => List.mem_rtakeWhile_imp ha⟩
  rw [ends, List.append_assoc, List.rdropWhile_append_rtakeWhile, List.takeWhile_append_dropWhile]

theorem ends_eq_nil_iff {l : List α} : ends p l = [] ↔ ∀ a ∈ l, p a = true := by
  constructor
  · intro h
    obtain ⟨before, after, hl, hbefore, hafter⟩ := exists_ends (p := p) l
    rw [hl, h]
    intro a ha
    simp only [List.append_nil, List.mem_append] at ha
    exact ha.elim (hbefore a) (hafter a)
  · intro h
    rw [ends, List.dropWhile_eq_nil_iff.2 h, List.rdropWhile_nil]

theorem ends_map {f : α → α} (h : ∀ a, p (f a) = p a) (l : List α) : ends p (l.map f) = (ends p l).map f := by
  have hf : p ∘ f = p := funext h
  simp only [ends, List.rdropWhile, List.dropWhile_map, ← List.map_reverse, hf]

end Ends

theorem isBlankText_iff {s : String} : isBlankText s = true ↔ trim s.toList = [] := by
  rw [trim_eq_ends, ends_eq_nil_iff, isBlankText, List.all_eq_true]

/-! ## Words -/

/-- Blanks and nothing else. -/
def IsGap (gap : List Char) : Prop := ∀ c ∈ gap, isBlank c = true

def IsWord (w : List Char) : Prop := w ≠ [] ∧ ∀ c ∈ w, isBlank c = false

/-- A text is some words in their order, with blanks between them and perhaps around them. -/
inductive Spells : List (List Char) → List Char → Prop
  | none {gap} : IsGap gap → Spells [] gap
  | last {gap w} : IsGap gap → IsWord w → Spells [w] (gap ++ w)
  | next {gap w between ws rest} : IsGap gap → IsWord w → IsGap between → between ≠ [] → Spells ws rest →
      Spells (w :: ws) (gap ++ w ++ between ++ rest)

theorem Spells.behind {gap text : List Char} {ws : List (List Char)} (hgap : IsGap gap) (h : Spells ws text) :
    Spells ws (gap ++ text) := by
  have hboth {more : List Char} (hmore : IsGap more) : IsGap (gap ++ more) := by
    intro c hc
    exact (List.mem_append.1 hc).elim (hgap c) (hmore c)
  cases h with
  | none hmore => exact .none (hboth hmore)
  | last hmore hw =>
    rw [← List.append_assoc]
    exact .last (hboth hmore) hw
  | next hmore hw hbetween hne hrest =>
    simp only [← List.append_assoc]
    exact .next (hboth hmore) hw hbetween hne hrest

theorem wordsFrom_blank {word : List Char} {c : Char} (hword : word ≠ []) (hc : isBlank c = true)
    (cs : List Char) : wordsFrom word (c :: cs) = word.reverse :: wordsFrom [] cs := by
  simp [wordsFrom, hc, hword]

theorem wordsFrom_gap {gap : List Char} (hgap : IsGap gap) (cs : List Char) :
    wordsFrom [] (gap ++ cs) = wordsFrom [] cs := by
  induction gap with
  | nil => rfl
  | cons c gap ih =>
    have hc : isBlank c = true := hgap c (by simp)
    have hrest : IsGap gap := fun d hd => hgap d (List.mem_cons_of_mem c hd)
    simp only [List.cons_append, wordsFrom, hc, List.isEmpty_nil, if_true]
    exact ih hrest

theorem wordsFrom_letters {w : List Char} (hw : ∀ c ∈ w, isBlank c = false) (word cs : List Char) :
    wordsFrom word (w ++ cs) = wordsFrom (w.reverse ++ word) cs := by
  induction w generalizing word with
  | nil => rfl
  | cons c w ih =>
    have hc : isBlank c = false := hw c (by simp)
    have hrest : ∀ d ∈ w, isBlank d = false := fun d hd => hw d (List.mem_cons_of_mem c hd)
    simp only [List.cons_append, wordsFrom, hc, Bool.false_eq_true, if_false]
    rw [ih hrest]
    simp

theorem Spells.words_eq {ws : List (List Char)} {text : List Char} (h : Spells ws text) : words text = ws := by
  induction h with
  | none hgap => simpa [words, wordsFrom] using wordsFrom_gap hgap []
  | last hgap hw =>
    have hletters := wordsFrom_letters hw.2 [] []
    rw [words, wordsFrom_gap hgap]
    simpa [wordsFrom, hw.1] using hletters
  | @next gap w between ws rest hgap hw hbetween hne hrest ih =>
    obtain ⟨c, between, rfl⟩ := List.exists_cons_of_ne_nil hne
    have hc : isBlank c = true := hbetween c (by simp)
    have hmore : IsGap between := fun d hd => hbetween d (List.mem_cons_of_mem c hd)
    have hreverse : w.reverse ≠ [] := by simpa using hw.1
    rw [words, List.append_assoc, List.append_assoc, wordsFrom_gap hgap, wordsFrom_letters hw.2, List.append_nil,
      List.cons_append, wordsFrom_blank hreverse hc, wordsFrom_gap hmore, List.reverse_reverse]
    exact congrArg (w :: ·) ih

/-- What is spelled while a word is being gathered. -/
theorem spells_wordsFrom (word cs : List Char) (hword : ∀ c ∈ word, isBlank c = false) :
    Spells (wordsFrom word cs) (word.reverse ++ cs) := by
  have hgathered (hne : word ≠ []) : IsWord word.reverse := by
    refine ⟨by simpa using hne, fun c hc => hword c (List.mem_reverse.1 hc)⟩
  induction cs generalizing word with
  | nil =>
    cases word with
    | nil => exact .none (by simp [IsGap])
    | cons d word =>
      simp only [wordsFrom, List.isEmpty_cons, Bool.false_eq_true, if_false, List.append_nil]
      exact @Spells.last [] _ (by simp [IsGap]) (hgathered (by simp))
  | cons c cs ih =>
    cases hc : isBlank c with
    | true =>
      have hgap : IsGap [c] := by simpa [IsGap] using hc
      have hrest : Spells (wordsFrom [] cs) cs := by simpa using ih [] (by simp) (by simp)
      cases word with
      | nil =>
        simp only [wordsFrom, hc, List.isEmpty_nil, if_true, List.reverse_nil, List.nil_append]
        exact hrest.behind hgap
      | cons d word =>
        rw [wordsFrom_blank (by simp) hc]
        have hnext := @Spells.next [] _ _ _ _ (by simp [IsGap]) (hgathered (by simp)) hgap (by simp) hrest
        simpa using hnext
    | false =>
      simp only [wordsFrom, hc, Bool.false_eq_true, if_false]
      have hmore : ∀ d ∈ c :: word, isBlank d = false := by
        intro d hd
        rcases List.mem_cons.1 hd with rfl | hd
        · exact hc
        · exact hword d hd
      have hletter := ih (c :: word) hmore fun _ =>
        ⟨by simp, fun d hd => hmore d (List.mem_reverse.1 hd)⟩
      simpa using hletter

/-- **The words of a text are those that spell it.** -/
theorem words_eq_iff {ws : List (List Char)} {text : List Char} : words text = ws ↔ Spells ws text := by
  constructor
  · rintro rfl
    simpa [words] using spells_wordsFrom [] text (by simp)
  · exact Spells.words_eq

theorem wordsFrom_append_gap {gap : List Char} (hgap : IsGap gap) (word cs : List Char) :
    wordsFrom word (cs ++ gap) = wordsFrom word cs := by
  induction cs generalizing word with
  | nil =>
    cases gap with
    | nil => rfl
    | cons c gap =>
      have hc : isBlank c = true := hgap c (by simp)
      have hnone : wordsFrom [] gap = [] := by
        simpa [wordsFrom] using wordsFrom_gap (fun d hd => hgap d (List.mem_cons_of_mem c hd)) []
      simp [wordsFrom, hc, hnone]
  | cons c cs ih => simp only [List.cons_append, wordsFrom, ih]

/-- A text has the words of what is between the blanks around it. -/
theorem words_trim (cs : List Char) : words (trim cs) = words cs := by
  obtain ⟨before, after, hcs, hbefore, hafter⟩ := exists_ends (p := isBlank) cs
  conv_rhs => rw [hcs, words, List.append_assoc, wordsFrom_gap hbefore, wordsFrom_append_gap hafter]
  rfl

end ToolAgent.Text
