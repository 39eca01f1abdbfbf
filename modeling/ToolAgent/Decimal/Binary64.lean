/-
Finite binary64 numbers in exact arithmetic. A number is a sign and
`significand * 2 ^ exponent`; every operation works on the exact quotient of
two natural numbers and rounds once, to the nearest number, a half to the even
significand.
-/
namespace ToolAgent

/-- A finite binary64 number. -/
structure Binary64 where
  negative : Bool
  significand : Nat
  exponent : Int
  deriving DecidableEq, Repr, Inhabited

namespace Binary64

/-- `n / d` to the nearest whole number, a half to the even neighbour. -/
def nearest (n d : Nat) : Nat :=
  let q := n / d
  let r := n % d
  if 2 * r < d then q else if d < 2 * r then q + 1 else q + q % 2

/-- `n / d` as a quotient counted in units of `2 ^ e`. -/
def inUnits (n d : Nat) (e : Int) : Nat × Nat :=
  if 0 ≤ e then (n, d * Nat.pow 2 e.toNat) else (n * Nat.pow 2 (-e).toNat, d)

/-- The least significand of the numbers that are not too small for all 53 bits. -/
def leastFull : Nat := 4503599627370496

/-- Zero of either sign. -/
def zero (negative : Bool) : Binary64 := ⟨negative, 0, -1074⟩

/-- The number nearest to `n / d`; none when that is beyond the largest one. -/
def ofRatio? (negative : Bool) (n d : Nat) : Option Binary64 :=
  if n = 0 ∨ d = 0 then some (zero negative) else
  let guess : Int := (n.log2 : Int) - (d.log2 : Int) - 52
  let (gn, gd) := inUnits n d guess
  let e := max (if gd * leastFull ≤ gn then guess else guess - 1) (-1074)
  let (un, ud) := inUnits n d e
  let m := nearest un ud
  let (m, e) := if m = 2 * leastFull then (leastFull, e + 1) else (m, e)
  if 971 < e then none else some ⟨negative, m, e⟩

/-- The magnitude as an exact quotient. -/
def ratio (x : Binary64) : Nat × Nat :=
  if 0 ≤ x.exponent then (x.significand * Nat.pow 2 x.exponent.toNat, 1)
  else (x.significand, Nat.pow 2 (-x.exponent).toNat)

def isZero (x : Binary64) : Bool := x.significand == 0

/-- The magnitude times the number nearest to `10 ^ k`, keeping the sign. -/
def timesTen? (x : Binary64) (k : Nat) : Option Binary64 :=
  match ofRatio? false (Nat.pow 10 k) 1 with
  | none => none
  | some p => ofRatio? x.negative (x.ratio.1 * p.ratio.1) (x.ratio.2 * p.ratio.2)

/-- The magnitude divided by the number nearest to `10 ^ k`, keeping the sign. -/
def overTen? (x : Binary64) (k : Nat) : Option Binary64 :=
  match ofRatio? false (Nat.pow 10 k) 1 with
  | none => none
  | some p => ofRatio? x.negative (x.ratio.1 * p.ratio.2) (x.ratio.2 * p.ratio.1)

/-- The number nearest to `significand * 10 ^ exponent`. -/
def ofDecimal? (negative : Bool) (significand : Nat) (exponent : Int) : Option Binary64 :=
  if significand = 0 then some (zero negative)
  else if 0 ≤ exponent then
    if 400 < exponent then none else ofRatio? negative (significand * Nat.pow 10 exponent.toNat) 1
  else if exponent + (significand.log2 : Int) < -1100 then some (zero negative)
  else ofRatio? negative significand (Nat.pow 10 (-exponent).toNat)

/-- The nearest whole number, a half away from zero. -/
def roundAway (x : Binary64) : Int :=
  let (n, d) := x.ratio
  let m : Int := (2 * n + d) / (2 * d)
  if x.negative then -m else m

end Binary64
end ToolAgent
