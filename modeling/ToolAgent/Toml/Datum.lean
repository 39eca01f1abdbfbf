/-
The plain data in a TOML document. Moments are texts. A table whose first key is a
certain mark stands for the moment that the text under the mark spells out; further
keys do not count then.
-/
import ToolAgent.Datum
import ToolAgent.Toml.Reader

namespace ToolAgent.Toml

/-- The mark of a table that stands for a moment. -/
def momentMark : String := "$__toml_private_datetime"

/-- What stands under the mark of a table that begins with it. -/
def underMark? : List (String × Toml) → Option Toml
  | (k, v) :: _ => if k = momentMark then some v else none
  | [] => none

/-- The moment that a value spells out, in its plain form. -/
def momentText? : Toml → Option String
  | .string s => (Moment.ofText? s).map Moment.text
  | _ => none

mutual

/-- None where a marked table spells out no moment. -/
def datum? : Toml → Option Datum
  | .string s => some (.text s)
  | .integer n => some (.number n)
  | .float x => some (.float x)
  | .bool b => some (.bool b)
  | .moment m => some (.text m.text)
  | .array items => (data? items).map .list
  | .table fields =>
    match underMark? fields with
    | some v => (momentText? v).map .text
    | none => (fieldData? fields).map .table

def data? : List Toml → Option (List Datum)
  | [] => some []
  | v :: vs => do return (← datum? v) :: (← data? vs)

def fieldData? : List (String × Toml) → Option (List (String × Datum))
  | [] => some []
  | (k, v) :: fs => do return (k, ← datum? v) :: (← fieldData? fs)

end

end ToolAgent.Toml
