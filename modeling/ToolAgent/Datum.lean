/-
Plain data, as a document of any format holds it: scalars, lists, and tables of
named fields.
-/
import ToolAgent.Decimal.Extended
import ToolAgent.Json.Value

namespace ToolAgent

inductive Scalar where
  | nothing
  | bool (b : Bool)
  | integer (n : Int)
  | float (x : Extended)
  | text (s : String)
  deriving DecidableEq, Repr, Inhabited

inductive Datum where
  | scalar (v : Scalar)
  | list (items : List Datum)
  | table (fields : List (String × Datum))
  deriving Repr, Inhabited

namespace Datum

def nothing : Datum := .scalar .nothing

def text (s : String) : Datum := .scalar (.text s)

def bool (b : Bool) : Datum := .scalar (.bool b)

/-- A whole number as long as it fits a signed word, else the nearest other one. -/
def number (n : Int) : Datum :=
  .scalar (if Word.Signed n then .integer n else .float (.ofDecimal (n < 0) n.natAbs 0))

def float (x : Extended) : Datum := .scalar (.float x)

/-- Puts a field in the place of an equal one, or else at the end. -/
def setField {α : Type} (key : String) (v : α) : List (String × α) → List (String × α)
  | [] => [(key, v)]
  | (k, w) :: rest => if k = key then (key, v) :: rest else (k, w) :: setField key v rest

/-- A table from fields in which a key may come again; the last counts. -/
def ofFields (fields : List (String × Datum)) : Datum :=
  .table (fields.foldl (fun all (k, v) => setField k v all) [])

/-- The fields of a table. -/
def fields? : Datum → Option (List (String × Datum))
  | .table fields => some fields
  | _ => none

mutual

def ofJson : Json → Datum
  | .null => nothing
  | .bool b => bool b
  | .number (.int n) => number n
  | .number (.float x) => float (.finite x)
  | .string s => text s
  | .array items => .list (ofJsonItems items)
  | .object fields => .table (ofJsonFields fields)

def ofJsonItems : List Json → List Datum
  | [] => []
  | v :: vs => ofJson v :: ofJsonItems vs

def ofJsonFields : List (String × Json) → List (String × Datum)
  | [] => []
  | (k, v) :: fs => (k, ofJson v) :: ofJsonFields fs

end

end Datum
end ToolAgent
