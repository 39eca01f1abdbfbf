/-
Numbers as JSON text writes them.

A whole number that fits 64 bits, signed or not, is kept as such. Any other
number is read in steps: digits are kept as long as they fit an unsigned word
and dropped after that, the kept word becomes the nearest binary64 number, and
that is multiplied or divided once by the nearest power of ten. Each of the
steps rounds, so the result may miss the nearest number by a last place.
-/
import ToolAgent.Json.Node
import ToolAgent.Decimal.Digits

namespace ToolAgent.Json

/-- The parts of a number as written. -/
structure Numeral where
  negative : Bool
  whole : List Char
  fraction : List Char
  /-- The sign of the exponent and its digits. -/
  exponent : Option (Bool × List Char)
  deriving Repr

namespace Numeral

/-- Takes digits as long as they fit an unsigned word. -/
def keep (n : Nat) : List Char → Nat × List Char
  | [] => (n, [])
  | c :: cs =>
    if 10 * n + Decimal.digitVal c < Word.count then keep (10 * n + Decimal.digitVal c) cs
    else (n, c :: cs)

/-- The largest power of ten that is taken in one step. -/
def stride : Nat := 308

/-- Scales by a power of ten, at most one stride up and so many strides down. -/
def scale? : Nat → Binary64 → Int → Option Binary64
  | strides, x, e =>
    if 0 ≤ e ∧ e ≤ stride then x.timesTen? e.toNat
    else if e < 0 ∧ -e ≤ stride then x.overTen? (-e).toNat
    else if x.isZero then some x
    else if 0 ≤ e then none
    else
      match strides with
      | 0 => some x
      | strides + 1 => (x.overTen? stride).bind (scale? strides · (e + stride))

/-- Exponents are read as long as they are below this. -/
def exponentLimit : Nat := 2147483648

/-- The count of an exponent's digits up to the one with which it is too large. -/
def excess? : Nat → Nat → List Char → Option Nat
  | _, _, [] => none
  | n, count, c :: cs =>
    if exponentLimit ≤ 10 * n + Decimal.digitVal c then some (count + 1)
    else excess? (10 * n + Decimal.digitVal c) (count + 1) cs

/-- The number, none when it is beyond the largest one. -/
def value? (n : Numeral) : Option Number :=
  let (kept, dropped) := keep 0 n.whole
  match n.fraction, n.exponent, dropped with
  | [], none, [] =>
    if ¬ n.negative then some (.int kept)
    else if 0 < kept ∧ kept ≤ Word.half then some (.int (-kept))
    else (Binary64.ofRatio? true kept 1).map .float
  | _, _, _ =>
    let (all, rest) := keep kept n.fraction
    let places : Int := dropped.length - (n.fraction.length - rest.length : Nat)
    -- a word is zero after two strides down
    let finish (e : Int) : Option Number :=
      ((Binary64.ofRatio? n.negative all 1).bind (scale? 3 · (places + e))).map .float
    match n.exponent with
    | none => finish 0
    | some (below, ds) =>
      if (excess? 0 0 ds).isSome then
        if all = 0 ∨ below then some (.float (.zero n.negative)) else none
      else finish (if below then -Decimal.ofDigits ds else Decimal.ofDigits ds)

end Numeral
end ToolAgent.Json
