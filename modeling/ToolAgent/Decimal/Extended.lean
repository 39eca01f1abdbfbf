/-
Binary64 numbers with the infinities and a number that is none, and their plain
text.
-/
import ToolAgent.Decimal.Binary64
import ToolAgent.Decimal.Digits
import ToolAgent.Decimal.Shortest
import ToolAgent.Decimal.Word

namespace ToolAgent

inductive Extended where
  | finite (x : Binary64)
  | infinite (negative : Bool)
  | nan
  deriving DecidableEq, Repr, Inhabited

namespace Extended

def write (l : Decimal.Layout) : Extended → String
  | .finite x => String.ofList (l.write x)
  | .infinite false => "inf"
  | .infinite true => "-inf"
  | .nan => "NaN"

/-- Everything but the two zeros. -/
def isNonzero : Extended → Bool
  | .finite x => !x.isZero
  | _ => true

/-- The nearest number of an unsigned word, a half away from zero. -/
def toWord : Extended → Nat
  | .finite x => min x.roundAway.toNat (Word.count - 1)
  | .infinite false => Word.count - 1
  | _ => 0

/-- The number nearest to `significand * 10 ^ exponent`, or an infinity beyond all. -/
def ofDecimal (negative : Bool) (significand : Nat) (exponent : Int) : Extended :=
  match Binary64.ofDecimal? negative significand exponent with
  | some x => .finite x
  | none => .infinite negative

/-- A sign, and what follows it. -/
def splitSign : List Char → Bool × List Char
  | '+' :: cs => (false, cs)
  | '-' :: cs => (true, cs)
  | cs => (false, cs)

/-- The exponent written after its mark. -/
def readExponent? (cs : List Char) : Option Int :=
  let (negative, ds) := splitSign cs
  if ds.isEmpty || !ds.all Char.isDigit then none
  else some (if negative then -(Decimal.ofDigits ds : Int) else Decimal.ofDigits ds)

def isExponentMark (c : Char) : Bool := c = 'e' || c = 'E'

/-- A number from the text after its sign: digits with a point somewhere or nowhere,
and an exponent or none. -/
def ofUnsigned? (negative : Bool) (cs : List Char) : Option Extended :=
  let mantissa := cs.takeWhile (!isExponentMark ·)
  let whole := mantissa.takeWhile (· ≠ '.')
  let fraction := (mantissa.dropWhile (· ≠ '.')).drop 1
  let exponent? := match cs.dropWhile (!isExponentMark ·) with
    | [] => some 0
    | _ :: ds => readExponent? ds
  let ds := whole ++ fraction
  if ds.isEmpty || !ds.all Char.isDigit then none
  else exponent?.map fun e => ofDecimal negative (Decimal.ofDigits ds) (e - fraction.length)

/-- The names of what is no finite number, in any case. -/
def ofName? (negative : Bool) (cs : List Char) : Option Extended :=
  let name := cs.map Char.toLower
  if name = "inf".toList || name = "infinity".toList then some (.infinite negative)
  else if name = "nan".toList then some .nan
  else none

/-- The number a text stands for: a sign or none, then a name or a decimal. -/
def ofText? (s : String) : Option Extended :=
  let (negative, cs) := splitSign s.toList
  (ofName? negative cs).or (ofUnsigned? negative cs)

end Extended
end ToolAgent
