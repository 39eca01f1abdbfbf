/-
Strings and numbers: what is written is read back.

A string is read character by character, each behind its escape (`readText_escape`). A number is
read as the longest run of digits, so what follows it must not go on with it (`Ends`).
-/
import ToolAgent.Json.Printer
import ToolAgent.Json.Reader

namespace ToolAgent

/-! ## Digits -/

namespace Decimal

/-- A number of several digits does not start with a zero. -/
theorem digits_head {n : Nat} {ds : List Char} (h : digits n = '0' :: ds) : ds = [] := by
  rw [digits] at h
  split at h
  · exact (List.cons.inj h).2.symm
  next hn =>
    obtain ⟨c, cs, hc⟩ := List.exists_cons_of_ne_nil (digits_ne_nil (n / 10))
    rw [hc] at h
    obtain ⟨rfl, -⟩ := List.cons.inj h
    -- The digits before the last are those of a number that is not zero.
    obtain rfl := digits_head hc
    have hz : ofDigits (digits (n / 10)) = 0 := by
      rw [hc]
      rfl
    rw [ofDigits_digits] at hz
    omega
termination_by n
decreasing_by omega

theorem foldl_digits_le (n : Nat) (cs : List Char) :
    n ≤ cs.foldl (fun n c => 10 * n + digitVal c) n := by
  induction cs generalizing n with
  | nil => exact Nat.le_refl n
  | cons c cs ih =>
    have := ih (10 * n + digitVal c)
    rw [List.foldl_cons]
    omega

end Decimal

/-- A whole number fits a word, be it signed or not. -/
def Number.Plain : Number → Prop
  | .int n => -(Word.half : Int) ≤ n ∧ n < Word.count
  | .float _ => False

namespace Json

/-! ## Strings -/

theorem hex4?_control : ∀ n, n < 32 → hex4? '0' '0' (hexDigit (n / 16)) (hexDigit (n % 16)) = some n := by
  decide

/-- An escape of one letter. -/
theorem readText_letter {e c : Char} (h : unescape? e = some c) (p : Place) (acc rest : List Char) :
    readText p acc none ('\\' :: e :: rest) = readText ((p.past '\\').past e) (c :: acc) none rest := by
  rw [readText.eq_def]
  simp [h]

theorem readText_escape (p : Place) (acc : List Char) (c : Char) (rest : List Char) :
    ∃ p', readText p acc none (escape c ++ rest) = readText p' (c :: acc) none rest := by
  unfold escape
  split
  next h => subst h; exact ⟨_, readText_letter rfl p acc rest⟩
  split
  next h => subst h; exact ⟨_, readText_letter rfl p acc rest⟩
  split
  next h => subst h; exact ⟨_, readText_letter rfl p acc rest⟩
  split
  next h => subst h; exact ⟨_, readText_letter rfl p acc rest⟩
  split
  next h => subst h; exact ⟨_, readText_letter rfl p acc rest⟩
  split
  next h => subst h; exact ⟨_, readText_letter rfl p acc rest⟩
  split
  next h => subst h; exact ⟨_, readText_letter rfl p acc rest⟩
  split
  next h =>
    have hx := hex4?_control c.toNat h
    have hl : isLeadingSurrogate c.toNat = false := by
      simp only [isLeadingSurrogate, Bool.and_eq_false_iff, decide_eq_false_iff_not]
      omega
    have ht : isTrailingSurrogate c.toNat = false := by
      simp only [isTrailingSurrogate, Bool.and_eq_false_iff, decide_eq_false_iff_not]
      omega
    refine ⟨((p.past '\\').past 'u').pastAll
      ['0', '0', hexDigit (c.toNat / 16), hexDigit (c.toNat % 16)], ?_⟩
    simp [readText, unescape?, hx, hl, ht, Char.ofNat_toNat]
  next hq hb _ _ _ _ _ hc =>
    refine ⟨p.past c, ?_⟩
    rw [List.singleton_append, readText.eq_def]
    simp [hq, hb, hc]

/-- A string up to its closing quote. -/
theorem readText_escapeAll (p : Place) (acc : List Char) (cs rest : List Char) :
    ∃ p', readText p acc none (escapeAll cs ++ '"' :: rest) = .good (cs.reverse ++ acc) ⟨rest, p'⟩ := by
  induction cs generalizing p acc with
  | nil => exact ⟨p.past '"', by rw [escapeAll, List.nil_append, readText.eq_def]; simp⟩
  | cons c cs ih =>
    obtain ⟨p₁, h₁⟩ := readText_escape p acc c (escapeAll cs ++ '"' :: rest)
    obtain ⟨p₂, h₂⟩ := ih p₁ (c :: acc)
    refine ⟨p₂, ?_⟩
    rw [escapeAll, List.append_assoc, h₁, h₂]
    simp

/-! ## Whole numbers -/

/-- Does not go on with a number. -/
def Ends (rest : List Char) : Prop :=
  ∀ c cs, rest = c :: cs → c.isDigit = false ∧ c ≠ '.' ∧ c ≠ 'e' ∧ c ≠ 'E'

theorem Ends.nil : Ends [] := fun _ _ h => nomatch h

theorem Ends.digits {n : Nat} {rest : List Char} (h : Ends rest) (p : Place) :
    (Cursor.mk (Decimal.digits n ++ rest) p).digits = Decimal.digits n := by
  unfold Cursor.digits
  rw [List.takeWhile_append_of_pos (Decimal.isDigit_of_mem_digits n)]
  cases rest with
  | nil => simp
  | cons c cs => simp [(h c cs rfl).1]

theorem Numeral.keep_eq {n : Nat} : ∀ {cs : List Char},
    cs.foldl (fun n c => 10 * n + Decimal.digitVal c) n < Word.count →
      keep n cs = (cs.foldl (fun n c => 10 * n + Decimal.digitVal c) n, [])
  | [], _ => rfl
  | c :: cs, h => by
    rw [List.foldl_cons] at h
    have hc := Nat.lt_of_le_of_lt (Decimal.foldl_digits_le _ cs) h
    rw [keep, if_pos hc, Numeral.keep_eq h]
    rfl

theorem Numeral.keep_digits {n : Nat} (h : n < Word.count) : keep 0 (Decimal.digits n) = (n, []) := by
  have hn : (Decimal.digits n).foldl (fun n c => 10 * n + Decimal.digitVal c) 0 = n := Decimal.ofDigits_digits n
  rw [Numeral.keep_eq (hn.symm ▸ h), hn]

theorem Numeral.value?_signed {n : Int} (h : (Number.int n).Plain) :
    Numeral.value? ⟨decide (n < 0), Decimal.digits n.natAbs, [], none⟩ = some (.int n) := by
  obtain ⟨hlow, hhigh⟩ := h
  have hhalf : Word.half < Word.count := by decide
  have hkeep : keep 0 (Decimal.digits n.natAbs) = (n.natAbs, []) := Numeral.keep_digits (by omega)
  simp only [value?, hkeep]
  by_cases hn : n < 0
  · have hk : 0 < n.natAbs ∧ n.natAbs ≤ Word.half := by omega
    simp only [hn, decide_true, not_true, if_false, hk, and_self, if_true]
    congr 2
    omega
  · simp only [hn, decide_false, Bool.false_eq_true, not_false_iff, if_true]
    congr 2
    omega

theorem readFraction_of_ends (n : Numeral) {rest : List Char} (h : Ends rest) (p : Place) :
    readFraction n ⟨rest, p⟩ = readNumeral n p ⟨rest, p⟩ := by
  cases rest with
  | nil => rfl
  | cons c cs =>
    obtain ⟨-, hdot, he, hE⟩ := h c cs rfl
    unfold readFraction
    split
    next heq => exact absurd (List.cons.inj heq).1 hdot
    next => simp [readExponent, he, hE]

/-- A whole number, behind its sign. -/
theorem readNumber_signed {n : Int} {rest : List Char} (h : (Number.int n).Plain) (hr : Ends rest) (p : Place) :
    ∃ p', readNumber ⟨Decimal.signed n ++ rest, p⟩ = .good (.int n) ⟨rest, p'⟩ := by
  obtain ⟨d, ds, hds⟩ := List.exists_cons_of_ne_nil (Decimal.digits_ne_nil n.natAbs)
  have hdigit : d.isDigit = true := Decimal.isDigit_of_mem_digits n.natAbs d (by simp [hds])
  have hzero : ¬ (d = '0' ∧ ds ≠ []) := by
    rintro ⟨rfl, hne⟩
    exact hne (Decimal.digits_head hds)
  have hvalue := Numeral.value?_signed h
  have hsigned : Decimal.signed n = if n < 0 then '-' :: Decimal.digits n.natAbs else Decimal.digits n.natAbs := rfl
  -- The reader once it is behind the sign.
  have hbody : ∀ p, ∃ p', (if d = '0' ∧ ds ≠ [] then Lexed.flawed ⟨.invalidNumber, (p.past '0').past '0'⟩
      else readFraction ⟨decide (n < 0), d :: ds, [], none⟩
        ((Cursor.mk (d :: ds ++ rest) p).advance (ds.length + 1))) = .good (.int n) ⟨rest, p'⟩ := by
    intro p
    have hadvance : (Cursor.mk (d :: ds ++ rest) p).advance (ds.length + 1) = ⟨rest, p.pastAll (d :: ds)⟩ := by
      simp [Cursor.advance]
    rw [if_neg hzero, hadvance, readFraction_of_ends _ hr, readNumeral, ← hds, hvalue]
    exact ⟨_, rfl⟩
  have hdigits := hr.digits (n := n.natAbs)
  rw [hds] at hdigits
  rw [hsigned, hds]
  by_cases hn : n < 0
  · rw [if_pos hn]
    obtain ⟨p', hp'⟩ := hbody (p.past '-')
    refine ⟨p', ?_⟩
    have hstart : (Cursor.mk ('-' :: d :: ds ++ rest) p).advance 1 = ⟨d :: ds ++ rest, p.past '-'⟩ := rfl
    rw [← hp']
    simp only [readNumber, List.cons_append] at hstart ⊢
    simp only [hstart, hn, decide_true]
    simp only [← List.cons_append, hdigits]
  · rw [if_neg hn]
    obtain ⟨p', hp'⟩ := hbody p
    refine ⟨p', ?_⟩
    have hminus : d ≠ '-' := by
      rintro rfl
      cases hdigit
    rw [← hp']
    simp only [List.cons_append] at hdigits ⊢
    -- There is no sign, which the reader of a number looks for first.
    simp only [readNumber, List.cons.injEq, hminus, false_and, imp_self, implies_true, hn, decide_false]
    rw [hdigits]

end Json
end ToolAgent
