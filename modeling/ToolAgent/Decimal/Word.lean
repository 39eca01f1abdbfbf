/-
Whole numbers that fit a word of 64 bits.
-/
import ToolAgent.Decimal.Digits

namespace ToolAgent.Word

/-- How many words there are. -/
def count : Nat := 18446744073709551616

/-- Half of them stand for negative numbers when words are signed. -/
def half : Nat := 9223372036854775808

/-- Fits an unsigned word. -/
abbrev Unsigned (n : Int) : Prop := 0 ≤ n ∧ n < count

/-- Fits a signed word. -/
abbrev Signed (n : Int) : Prop := -(half : Int) ≤ n ∧ n < half

/-- The unsigned word that digits stand for. -/
def unsigned? (ds : List Char) : Option Nat :=
  let n := Decimal.ofDigits ds
  if ds.isEmpty || !ds.all Char.isDigit then none
  else if n < count then some n else none

/-- The signed word that digits stand for, with a minus sign or without. -/
def signed? (negative : Bool) (ds : List Char) : Option Int :=
  let n : Int := Decimal.ofDigits ds
  let n := if negative then -n else n
  if ds.isEmpty || !ds.all Char.isDigit then none
  else if Signed n then some n else none

end ToolAgent.Word
