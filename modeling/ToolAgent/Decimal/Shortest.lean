/-
The shortest decimal that reads back as a given binary64 number, and of those
the nearest. For one digit, two digits and so on, the two neighbours of the
number on the decimal grid of that many digits are tried; seventeen always do.
-/
import ToolAgent.Decimal.Binary64
import ToolAgent.Decimal.Digits

namespace ToolAgent.Decimal

/-- `n / d` compared with `10 ^ k` from below. -/
def reaches (n d : Nat) (k : Int) : Bool :=
  if 0 ≤ k then Nat.pow 10 k.toNat * d ≤ n else d ≤ n * Nat.pow 10 (-k).toNat

/-- The exponent of the leading digit of `n / d`, which is positive. -/
def leading (n d : Nat) : Int :=
  let guess : Int := (((n.log2 : Int) - (d.log2 : Int)) * 30103) / 100000
  if ¬ reaches n d guess then guess - 1
  else if reaches n d (guess + 1) then guess + 1
  else guess

/-- A multiple `c` of `10 ^ k` against `n / d`: both sides over one denominator. -/
def onGrid (n d : Nat) (k : Int) (c : Nat) : Nat × Nat :=
  if 0 ≤ k then (c * Nat.pow 10 k.toNat * d, n) else (c * d, n * Nat.pow 10 (-k).toNat)

/-- The decimals that round to a positive number: from `low` to `high` over `den`,
the ends included when the significand is even. -/
structure Interval where
  low : Nat
  value : Nat
  high : Nat
  den : Nat
  closed : Bool

def Interval.of (x : Binary64) : Interval :=
  let m := x.significand
  let below := if m = Binary64.leastFull ∧ -1074 < x.exponent then 1 else 2
  let e := x.exponent - 2
  let up := if 0 ≤ e then Nat.pow 2 e.toNat else 1
  let den := if 0 ≤ e then 1 else Nat.pow 2 (-e).toNat
  ⟨(4 * m - below) * up, 4 * m * up, (4 * m + 2) * up, den, m % 2 == 0⟩

/-- The decimal `c * 10 ^ k` lies in the interval. -/
def Interval.admits (i : Interval) (c : Nat) (k : Int) : Bool :=
  let (atLow, low) := onGrid i.low i.den k c
  let (atHigh, high) := onGrid i.high i.den k c
  if i.closed then low ≤ atLow && atHigh ≤ high else low < atLow && atHigh < high

/-- Of the two neighbours on the grid of `10 ^ k` the nearest that reads back. -/
def Interval.pick (i : Interval) (k : Int) : Option Nat :=
  let (step, value) := onGrid i.value i.den k 1
  let c := value / step
  let r := value % step
  match i.admits c k, i.admits (c + 1) k with
  | true, true => some (if 2 * r < step then c else if step < 2 * r then c + 1 else c + c % 2)
  | true, false => some c
  | false, true => some (c + 1)
  | false, false => none

/-- Tries ever finer grids, `left` of them. -/
def Interval.search (i : Interval) (top : Int) : Nat → Nat → Nat × Int
  | n, 0 => (i.value / i.den, top - n)
  | n, left + 1 =>
    match i.pick (top - n) with
    | some c => (c, top - n)
    | none => i.search top (n + 1) left

/-- Digits of a positive decimal and the exponent of the first of them. -/
structure Scientific where
  digits : List Char
  lead : Int

/-- Drops the zeros at the end, but never the first digit. -/
def trimZeros (cs : List Char) : List Char :=
  match (cs.reverse.dropWhile (· == '0')).reverse with
  | [] => cs.take 1
  | ds => ds

/-- The shortest digits of the magnitude; zero has the one digit `0`. -/
def shortest (x : Binary64) : Scientific :=
  if x.isZero then ⟨['0'], 0⟩ else
  let i := Interval.of x
  let (c, k) := i.search (leading i.value i.den) 0 17
  let ds := Decimal.digits c
  ⟨trimZeros ds, k + (ds.length - 1 : Nat)⟩

/-- How a number is laid out: positional between two leading exponents, with a
mark for whole numbers, else scientific. -/
structure Layout where
  least : Int
  most : Int
  wholeMark : List Char

/-- Digits with the point after the place of the units. -/
def positional (s : Scientific) (wholeMark : List Char) : List Char :=
  if s.lead < 0 then
    '0' :: '.' :: List.replicate (-s.lead - 1).toNat '0' ++ s.digits
  else
    let whole := s.lead.toNat + 1
    if s.digits.length ≤ whole then
      s.digits ++ List.replicate (whole - s.digits.length) '0' ++ wholeMark
    else s.digits.take whole ++ '.' :: s.digits.drop whole

/-- One digit, the others after a point, and a signed exponent. -/
def scientific (s : Scientific) : List Char :=
  let mantissa := match s.digits with
    | [] => ['0']
    | [d] => [d]
    | d :: ds => d :: '.' :: ds
  let sign := if s.lead < 0 then '-' else '+'
  mantissa ++ 'e' :: sign :: Decimal.digits s.lead.natAbs

def Layout.write (l : Layout) (x : Binary64) : List Char :=
  let s := shortest x
  let body := if l.least ≤ s.lead ∧ s.lead ≤ l.most then positional s l.wholeMark else scientific s
  if x.negative then '-' :: body else body

/-- Always positional, a whole number without a point. -/
def Layout.plain : Layout := ⟨-400, 400, []⟩

/-- Always positional, a whole number with `.0`. -/
def Layout.pointed : Layout := ⟨-400, 400, ['.', '0']⟩

end ToolAgent.Decimal
