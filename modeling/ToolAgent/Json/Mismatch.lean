/-
What a typed reading finds wrong with a value of the wrong shape.
-/
import ToolAgent.Json.Printer
import ToolAgent.Json.Node
import ToolAgent.Text.Quoted

namespace ToolAgent.Json

/-- What was met in place of what was due. -/
inductive Sight where
  | null
  | bool (b : Bool)
  | int (n : Int)
  | float (x : Binary64)
  | string (s : String)
  | list
  | map
  | bareVariant
  deriving DecidableEq, Repr

def Sight.ofNumber : Number → Sight
  | .int n => .int n
  | .float x => .float x

def Sight.text : Sight → String
  | .null => "null"
  | .bool true => "boolean `true`"
  | .bool false => "boolean `false`"
  | .int n => "integer `" ++ String.ofList (Decimal.signed n) ++ "`"
  | .float x => "floating point `" ++ String.ofList (floatLayout.write x) ++ "`"
  | .string s => "string " ++ Text.quoted s
  | .list => "sequence"
  | .map => "map"
  | .bareVariant => "unit variant"

inductive Mismatch where
  | type (seen : Sight) (due : String)
  | value (seen : Sight) (due : String)
  | length (count : Nat) (due : String)
  | variant (name : String) (known : List String)
  | missing (field : String)
  | repeated (field : String)
  deriving DecidableEq, Repr

/-- The admitted names as a choice. -/
def choice (names : List String) : String :=
  match names.map fun n => "`" ++ n ++ "`" with
  | [a] => a
  | [a, b] => a ++ " or " ++ b
  | all => "one of " ++ ", ".intercalate all

def Mismatch.message : Mismatch → String
  | .type seen due => "invalid type: " ++ seen.text ++ ", expected " ++ due
  | .value seen due => "invalid value: " ++ seen.text ++ ", expected " ++ due
  | .length count due => "invalid length " ++ toString count ++ ", expected " ++ due
  | .variant name known => "unknown variant `" ++ name ++ "`, expected " ++ choice known
  | .missing field => "missing field `" ++ field ++ "`"
  | .repeated field => "duplicate field `" ++ field ++ "`"

/-- Why a typed reading fails: the text is at fault, or the shape of its value is,
which has a place only when the value is read from a text. -/
inductive DecodeError where
  | fault (f : Fault)
  | mismatch (m : Mismatch) (place : Option Place)
  deriving DecidableEq, Repr

namespace DecodeError

/-- A mismatch that has no place yet gets one. -/
def settle (p : Place) : DecodeError → DecodeError
  | .mismatch m none => .mismatch m (some p)
  | e => e

/-- The message; only faults of the text tell their place. -/
def message : DecodeError → String
  | .fault f => f.message
  | .mismatch m _ => m.message

/-- The message with the place of a mismatch too. -/
def placedMessage : DecodeError → String
  | .fault f => f.message
  | .mismatch m none => m.message
  | .mismatch m (some p) => p.after m.message

end DecodeError
end ToolAgent.Json
