/-
What the characters of ASCII come to in lower case and in the classes of characters.

A large letter of ASCII is of the same classes as the small one and has the same lower case, also for
those around it (`lower_map_toLower`): whether a sigma is final does not hang on it. Punctuation is
neither letter nor number nor blank.
-/
import ToolAgent.Text.Alphanumeric
import ToolAgent.Text.Blank
import ToolAgent.Text.Case

namespace ToolAgent.Text

/-! ## Large and small letters -/

theorem toLower_eq_self {c : Char} (h : 128 ≤ c.toNat) : c.toLower = c := by
  have hval : 'Z'.val < c.val := by
    have hZ : 'Z'.toNat = 90 := rfl
    show 'Z'.toNat < c.toNat
    omega
  unfold Char.toLower
  grind

/-- What is the same for both cases within ASCII is so for all characters. -/
theorem apply_toLower {β : Type} (f : Char → β) (h : ∀ n < 128, f (Char.ofNat n).toLower = f (Char.ofNat n))
    (c : Char) : f c.toLower = f c := by
  rcases Nat.lt_or_ge c.toNat 128 with hc | hc
  · simpa using h c.toNat hc
  · rw [toLower_eq_self hc]

theorem isAlphanumeric_toLower (c : Char) : isAlphanumeric c.toLower = isAlphanumeric c :=
  apply_toLower isAlphanumeric (by decide +kernel) c

theorem isCased_toLower (c : Char) : isCased c.toLower = isCased c :=
  apply_toLower isCased (by decide +kernel) c

theorem isIgnorable_toLower (c : Char) : isIgnorable c.toLower = isIgnorable c :=
  apply_toLower isIgnorable (by decide +kernel) c

theorem lowerChar_toLower (c : Char) : lowerChar c.toLower = lowerChar c :=
  apply_toLower lowerChar (by decide +kernel) c

theorem toLower_eq_sigma_iff (c : Char) : c.toLower = '\u03a3' ↔ c = '\u03a3' := by
  have h := apply_toLower (fun d => decide (d = '\u03a3')) (by decide +kernel) c
  simpa using h

theorem meetsCased_map_toLower (cs : List Char) : meetsCased (cs.map Char.toLower) = meetsCased cs := by
  have hignorable : isIgnorable ∘ Char.toLower = isIgnorable := funext isIgnorable_toLower
  simp only [meetsCased, List.dropWhile_map, hignorable]
  cases cs.dropWhile isIgnorable with
  | nil => rfl
  | cons c cs => exact isCased_toLower c

theorem lowerFrom_map_toLower (before cs : List Char) :
    lowerFrom (before.map Char.toLower) (cs.map Char.toLower) = lowerFrom before cs := by
  induction cs generalizing before with
  | nil => rfl
  | cons c cs ih =>
    have hrest := ih (c :: before)
    rw [List.map_cons] at hrest
    simp only [List.map_cons, lowerFrom, toLower_eq_sigma_iff, meetsCased_map_toLower, lowerChar_toLower, hrest]

/-- The lower case of a text does not hang on the case of its letters of ASCII. -/
theorem lower_map_toLower (cs : List Char) : lower (cs.map Char.toLower) = lower cs := lowerFrom_map_toLower [] cs

/-! ## Punctuation -/

/-- The ranges of what ASCII has to be printed, letters, digits and the blank apart. -/
def punctuationRanges : List (Nat × Nat) := [(0x21, 0x2F), (0x3A, 0x40), (0x5B, 0x60), (0x7B, 0x7E)]

def isPunctuation (c : Char) : Bool := covers punctuationRanges c.toNat

theorem isPunctuation_ascii {c : Char} (h : isPunctuation c = true) : c.toNat < 128 := by
  simp only [isPunctuation, punctuationRanges, covers] at h
  grind

theorem isAlphanumeric_of_isPunctuation {c : Char} (h : isPunctuation c = true) : isAlphanumeric c = false := by
  have hall : ∀ n < 128, covers punctuationRanges n = true → covers alphanumericRanges n = false := by
    decide +kernel
  exact hall c.toNat (isPunctuation_ascii h) h

end ToolAgent.Text
