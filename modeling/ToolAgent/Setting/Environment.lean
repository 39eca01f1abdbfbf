/-
Settings in environment variables. A variable sets something if its name starts
with `BEE__`, in any case; two underscores in the rest of the name stand for the
point of a key. What looks like a truth value or a number is taken for one.
-/
import ToolAgent.Setting.Key

namespace ToolAgent

/-- Variables by name. -/
abbrev Environment := List (String × String)

namespace Environment

def marker : List Char := ['b', 'e', 'e', '_', '_']

def origin : String := "the environment"

/-- Two underscores become a point, from left to right. -/
def dotted : List Char → List Char
  | '_' :: '_' :: cs => '.' :: dotted cs
  | c :: cs => c :: dotted cs
  | [] => []

/-- The key that a variable sets. -/
def keyOf? (name : String) : Option String :=
  let cs := Text.lower name.toList
  if marker.isPrefixOf cs then some (String.ofList (dotted (cs.drop marker.length))) else none

/-- A whole number that fits a signed word. -/
def integer? (s : String) : Option Int :=
  let (negative, ds) := Extended.splitSign s.toList
  Word.signed? negative ds

def truth? (s : String) : Option Bool :=
  match Text.lowerText s with
  | "true" => some true
  | "false" => some false
  | _ => none

/-- What a variable's text is taken for. -/
def scalar (s : String) : Scalar :=
  match truth? s with
  | some b => .bool b
  | none =>
    match integer? s with
    | some n => .integer n
    | none =>
      match Extended.ofText? s with
      | some x => .float x
      | none => .text s

/-- The settings of the environment; of variables for one key the last counts. -/
def source (env : Environment) : Setting.Source :=
  env.foldl (fun source (name, value) =>
    match keyOf? name with
    | none => source
    | some key => Datum.setField key (.scalar origin (scalar value)) source) []

end Environment
end ToolAgent
