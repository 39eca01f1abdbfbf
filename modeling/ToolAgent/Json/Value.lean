/-
JSON values. The fields of an object keep the order in which they are listed;
`Json.sorted` is the form a value has once it has been read as free-form data:
keys in code point order, each once, the last of equal keys winning.
-/
import ToolAgent.Decimal.Binary64
import ToolAgent.Decimal.Word

namespace ToolAgent

/-- A number is whole as long as it was written whole and fits 64 bits. -/
inductive Number where
  | int (n : Int)
  | float (x : Binary64)
  deriving DecidableEq, Repr, Inhabited

inductive Json where
  | null
  | bool (b : Bool)
  | number (n : Number)
  | string (s : String)
  | array (items : List Json)
  | object (fields : List (String × Json))
  deriving Repr, Inhabited

namespace Json

/-- A whole number. -/
def int (n : Int) : Json := .number (.int n)

def strings (ss : List String) : Json := .array (ss.map .string)

/-- Puts a field at its place among sorted fields; an equal key is overwritten. -/
def setField (key : String) (value : Json) : List (String × Json) → List (String × Json)
  | [] => [(key, value)]
  | (k, v) :: rest =>
    if key = k then (key, value) :: rest
    else if key < k then (key, value) :: (k, v) :: rest
    else (k, v) :: setField key value rest

/-- Sorts fields by key, the last of equal keys winning. -/
def sortFields (fields : List (String × Json)) : List (String × Json) :=
  fields.foldl (fun sorted f => setField f.1 f.2 sorted) []

mutual

def sorted : Json → Json
  | .array items => .array (sortedItems items)
  | .object fields => .object (sortFields (sortedFields fields))
  | v => v

def sortedItems : List Json → List Json
  | [] => []
  | v :: vs => v.sorted :: sortedItems vs

def sortedFields : List (String × Json) → List (String × Json)
  | [] => []
  | (k, v) :: rest => (k, v.sorted) :: sortedFields rest

end

/-- The value of a field, when the value is an object that has it. -/
def field? (v : Json) (key : String) : Option Json :=
  match v with
  | .object fields => (fields.find? (·.1 = key)).map (·.2)
  | _ => none

def string? : Json → Option String
  | .string s => some s
  | _ => none

/-- A whole number that fits an unsigned word. -/
def unsigned? : Json → Option Nat
  | .number (.int n) => if Word.Unsigned n then some n.toNat else none
  | _ => none

/-- A whole number that fits a signed word. -/
def signed? : Json → Option Int
  | .number (.int n) => if Word.Signed n then some n else none
  | _ => none

end Json
end ToolAgent
