/-
The data in a YAML document: scalars, lists, and tables with scalars for keys. A plain
scalar is a truth value, a number or nothing if it looks like one, else a text.
-/
import ToolAgent.Datum
import ToolAgent.Text.Reading

namespace ToolAgent.Yaml

inductive Atom where
  | nothing
  /-- What does not look as its tag says. -/
  | malformed
  | bool (b : Bool)
  | integer (n : Int)
  /-- A number that is not whole, as it is written. -/
  | real (text : String)
  | text (s : String)
  deriving DecidableEq, Repr

inductive Node where
  | atom (a : Atom)
  | list (items : List Node)
  | table (fields : List (Atom × Node))
  deriving Repr, Inhabited

/-! ## Plain scalars -/

/-- A whole number that fits a signed word, from digits of a base after a sign or none. -/
def integer? (base : Nat) (cs : List Char) : Option Int :=
  let (negative, ds) := Extended.splitSign cs
  if ds.isEmpty then none
  else
    (Text.ofBase? base ds).bind fun n =>
      let v : Int := if negative then -n else n
      if Word.Signed v then some v else none

/-- The names of what is no finite number. -/
def specialNames : List String :=
  [".inf", ".Inf", ".INF", "+.inf", "+.Inf", "+.INF", "-.inf", "-.Inf", "-.INF",
   ".nan", ".NaN", ".NAN"]

def looksReal (s : String) : Bool :=
  specialNames.contains s || (s.toList.any Char.isDigit && (Extended.ofText? s).isSome)

/-- A whole number in another base, or after a plus sign. -/
def marked? : List Char → Option Int
  | '0' :: 'x' :: cs => integer? 16 cs
  | '0' :: 'o' :: cs => integer? 8 cs
  | '+' :: cs => integer? 10 cs
  | _ => none

/-- What a plain scalar looks like. -/
def Atom.ofPlain (s : String) : Atom :=
  match marked? s.toList with
  | some n => .integer n
  | none =>
    if s = "~" ∨ s = "null" then .nothing
    else if s = "true" then .bool true
    else if s = "false" then .bool false
    else
      match integer? 10 s.toList with
      | some n => .integer n
      | none => if looksReal s then .real s else .text s

/-- What a plain scalar is if a standard tag says its type. -/
def Atom.ofTyped (type s : String) : Atom :=
  match type with
  | "bool" => if s = "true" then .bool true else if s = "false" then .bool false else .malformed
  | "int" => (integer? 10 s.toList).elim .malformed .integer
  | "float" => if looksReal s then .real s else .malformed
  | "null" => if s = "~" ∨ s = "null" then .nothing else .malformed
  | _ => .text s

/-! ## Plain data -/

/-- The name that a key stands for. -/
def Atom.name? : Atom → Option String
  | .bool b => some (if b then "true" else "false")
  | .integer n => some (String.ofList (Decimal.signed n))
  | .real s | .text s => some s
  | _ => none

/-- A number that is none of the finite ones cannot be written as data. -/
def Atom.datum? : Atom → Option Datum
  | .nothing | .malformed => some .nothing
  | .bool b => some (.bool b)
  | .integer n => some (.number n)
  | .real s => (Extended.ofText? s).map .float
  | .text s => some (.text s)

mutual

def Node.datum? : Node → Option Datum
  | .atom a => a.datum?
  | .list items => (Node.data? items).map .list
  | .table fields => (Node.fieldData? fields).map .ofFields

def Node.data? : List Node → Option (List Datum)
  | [] => some []
  | v :: vs => do return (← Node.datum? v) :: (← Node.data? vs)

def Node.fieldData? : List (Atom × Node) → Option (List (String × Datum))
  | [] => some []
  | (k, v) :: fs => do return (← k.name?, ← Node.datum? v) :: (← Node.fieldData? fs)

end

end ToolAgent.Yaml
