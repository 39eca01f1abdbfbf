/-
Settings given their types. A setting of another type is converted where that
makes sense: numbers and truth values are written out as text, and texts are
read as numbers and truth values.
-/
import ToolAgent.Setting.Key
import ToolAgent.Text.Quoted

namespace ToolAgent

namespace Setting

/-- What a setting is, where something else is due. -/
inductive Sight where
  | nothing
  | integer (n : Int)
  | text (s : String)
  | list
  | map
  deriving DecidableEq, Repr

def Sight.message : Sight → String
  | .nothing => "unit value"
  | .integer n => "64-bit integer `" ++ String.ofList (Decimal.signed n) ++ "`"
  | .text s => "string " ++ Text.quoted s
  | .list => "sequence"
  | .map => "map"

inductive Due where
  | text
  | truth
  | number
  | unsigned
  deriving DecidableEq, Repr

def Due.message : Due → String
  | .text => "a string"
  | .truth => "a boolean"
  | .number => "an integer"
  | .unsigned => "an unsigned 64 bit or less integer"

/-- Why a setting cannot have its type. -/
inductive Mismatch where
  | kind (seen : Sight) (due : Due) (key : List Step) (origin : Option String)
  /-- A scalar where a section is due. -/
  | noSection (seen : Scalar) (title : String)
  deriving DecidableEq, Repr

def Scalar.message : Scalar → String
  | .nothing => "unit value"
  | .bool b => "boolean `" ++ (if b then "true" else "false") ++ "`"
  | .integer n => "integer `" ++ String.ofList (Decimal.signed n) ++ "`"
  | .float x => "floating point `" ++ x.write .pointed ++ "`"
  | .text s => "string " ++ Text.quoted s

namespace Mismatch

def message : Mismatch → String
  | .kind seen due key origin =>
    "invalid type: " ++ seen.message ++ ", expected " ++ due.message
      ++ (if key.isEmpty then "" else " for key `" ++ Step.key key ++ "`")
      ++ (match origin with
        | none => ""
        | some o => " in " ++ o)
  | .noSection seen title => "invalid type: " ++ Scalar.message seen ++ ", expected struct " ++ title

/-- The mismatch as seen from where a path starts. -/
def under (path : List Step) : Mismatch → Mismatch
  | .kind seen due key origin => .kind seen due (path ++ key) origin
  | m => m

end Mismatch

def misfit {α : Type} (s : Setting) (seen : Sight) (due : Due) : Except Mismatch α :=
  .error (.kind seen due [] (match s with
    | .scalar origin _ | .list origin _ | .table origin _ => origin))

/-- A bracketed setting, or nothing, in place of something that is due. -/
def misfitKind {α : Type} (s : Setting) (due : Due) : Except Mismatch α :=
  match s with
  | .scalar .. => s.misfit .nothing due
  | .list .. => s.misfit .list due
  | .table .. => s.misfit .map due

def asText (s : Setting) : Except Mismatch String :=
  match s with
  | .scalar _ (.text t) => .ok t
  | .scalar _ (.bool b) => .ok (if b then "true" else "false")
  | .scalar _ (.integer n) => .ok (String.ofList (Decimal.signed n))
  | .scalar _ (.float x) => .ok (x.write .plain)
  | s => s.misfitKind .text

def asTruth (s : Setting) : Except Mismatch Bool :=
  match s with
  | .scalar _ (.bool b) => .ok b
  | .scalar _ (.integer n) => .ok (n ≠ 0)
  | .scalar _ (.float x) => .ok x.isNonzero
  | .scalar _ (.text t) =>
    let t := Text.lowerText t
    if ["1", "true", "on", "yes"].contains t then .ok true
    else if ["0", "false", "off", "no"].contains t then .ok false
    else s.misfit (.text t) .truth
  | s => s.misfitKind .truth

/-- An unsigned word written in digits, perhaps after a plus sign. -/
def word? : List Char → Option Nat
  | '+' :: ds => Word.unsigned? ds
  | ds => Word.unsigned? ds

def asWord (s : Setting) : Except Mismatch Nat :=
  match s with
  | .scalar _ (.bool b) => .ok (if b then 1 else 0)
  | .scalar _ (.integer n) => if 0 ≤ n then .ok n.toNat else s.misfit (.integer n) .unsigned
  | .scalar _ (.float x) => .ok x.toWord
  | .scalar _ (.text t) =>
    let l := Text.lowerText t
    if ["true", "on", "yes"].contains l then .ok 1
    else if ["false", "off", "no"].contains l then .ok 0
    else
      match word? t.toList with
      | some n => .ok n
      | none => s.misfit (.text t) .number
  | s => s.misfitKind .number

/-- Nothing stands for absence. -/
def asOptional {α : Type} (read : Setting → Except Mismatch α) (s : Setting) :
    Except Mismatch (Option α) :=
  match s with
  | .scalar _ .nothing => .ok none
  | s =>
    match read s with
    | .ok a => .ok (some a)
    | .error e => .error e

/-! ## Sections -/

inductive Members where
  | named (fields : List (String × Setting))
  | ordered (items : List Setting)

/-- A group of settings and the way to it. Its members go by name, or by their order
when it is a list. -/
structure Section where
  path : List Step
  members : Members

namespace Section

def empty (path : List Step) : Section := ⟨path, .named []⟩

def ofSetting (title : String) (path : List Step) : Setting → Except Mismatch Section
  | .table _ fields => .ok ⟨path, .named fields⟩
  | .list _ items => .ok ⟨path, .ordered items⟩
  | .scalar _ v => .error (.noSection v title)

/-- A member with its place and its name, and the step that leads to it. -/
def member? (s : Section) (i : Nat) (name : String) : Option (Step × Setting) :=
  match s.members with
  | .named fields => (fields.lookup name).map (.name name, ·)
  | .ordered items => items[i]?.map (.place i, ·)

/-- Reads a member, which has a usual value in its absence. -/
def read {α : Type} (s : Section) (i : Nat) (name : String) (usual : α)
    (as : Setting → Except Mismatch α) : Except Mismatch α :=
  match s.member? i name with
  | none => .ok usual
  | some (step, v) =>
    match as v with
    | .ok a => .ok a
    | .error e => .error (e.under (s.path ++ [step]))

/-- A section within a section. -/
def inner (s : Section) (i : Nat) (name title : String) : Except Mismatch Section :=
  match s.member? i name with
  | none => .ok (empty (s.path ++ [.name name]))
  | some (step, v) => ofSetting title (s.path ++ [step]) v

end Section
end Setting
end ToolAgent
