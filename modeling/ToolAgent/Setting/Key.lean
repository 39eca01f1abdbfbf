/-
Keys that lead to a setting: names with points between them, and list places in
brackets.
-/
import ToolAgent.Decimal.Word
import ToolAgent.Setting

namespace ToolAgent

/-- A step on the way to a setting. A place below zero counts from the end. -/
inductive Step where
  | name (s : String)
  | place (i : Int)
  deriving DecidableEq, Repr

namespace Step

def isNameChar (c : Char) : Bool := c.isAlphanum || c = ' ' || c = '_' || c = '-'

def isSpace (c : Char) : Bool := c = ' ' || c = '\t'

/-- The number within brackets. -/
def placeOf? (cs : List Char) : Option Int :=
  let cs := ((cs.dropWhile isSpace).reverse.dropWhile isSpace).reverse
  match cs with
  | '-' :: ds => Word.signed? true ds
  | ds => Word.signed? false ds

/-- The steps after the first, each after a point or in brackets. -/
def read? : Nat → List Char → Option (List Step)
  | _, [] => some []
  | bound + 1, '.' :: cs =>
    match cs.takeWhile isNameChar with
    | [] => none
    | word => (read? bound (cs.dropWhile isNameChar)).map (.name (String.ofList word) :: ·)
  | bound + 1, '[' :: cs =>
    match cs.dropWhile (· ≠ ']') with
    | [] => none
    | _ :: rest => do
      let i ← placeOf? (cs.takeWhile (· ≠ ']'))
      return .place i :: (← read? bound rest)
  | _, _ => none

/-- The steps of a key; one that has not their form is a name as a whole. -/
def ofKey (key : String) : List Step :=
  match read? (key.length + 1) ('.' :: key.toList) with
  | some steps => steps
  | none => [.name key]

/-- The steps as a key. -/
def key : List Step → String
  | [] => ""
  | .name s :: steps => s ++ rest steps
  | .place i :: steps => "[" ++ toString i ++ "]" ++ rest steps
where
  rest : List Step → String
    | [] => ""
    | .name s :: steps => "." ++ s ++ rest steps
    | .place i :: steps => "[" ++ toString i ++ "]" ++ rest steps

/-- The place in a list of a length. -/
def index (size : Nat) (i : Int) : Nat := if 0 ≤ i then i.toNat else size - i.natAbs

end Step

namespace Setting

/-- Puts a setting where some steps lead. -/
def place (v : Setting) : List Step → Setting → Setting
  | [], s => s
  | [.name k], s => s.put k v
  | [.place i], s => s.withItem (Step.index s.size i) v
  | .name k :: steps, s =>
    s.withField (Text.lowerText k) (place v steps ((s.field? (Text.lowerText k)).getD nothing))
  | .place i :: steps, s =>
    let i := Step.index s.size i
    s.withItem i (place v steps ((s.item? i).getD nothing))

/-- Settings by key, as one source has them. -/
abbrev Source := List (String × Setting)

/-- Puts all of a source over what is there. -/
def overlay (s : Setting) (source : Source) : Setting :=
  source.foldl (fun s (key, v) => place v (Step.ofKey key) s) s

/-- Sources put one over the other, the first lowest. -/
def assemble (sources : List Source) : Setting := sources.foldl overlay emptyTable

end Setting
end ToolAgent
