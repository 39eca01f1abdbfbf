/-
The settings one by one: where each stands in a source, what it is read as, and the variables of the
environment that name it.
-/
import ToolAgent.Settings.Sources

namespace ToolAgent

namespace Settings

inductive Member where
  | name
  | description
  | systemMessage
  | reflects
  | template
  | bufferSize
  | statePath
  deriving DecidableEq, Repr

namespace Member

/-- The section of a setting. -/
def group : Member → String
  | .name | .description | .systemMessage | .reflects | .template => "agent"
  | .bufferSize | .statePath => "context"

/-- The name of a setting in its section. -/
def label : Member → String
  | .name => "name"
  | .description => "description"
  | .systemMessage => "system_message"
  | .reflects => "reflect_on_tool_use"
  | .template => "tool_call_summary_format"
  | .bufferSize => "buffer_size"
  | .statePath => "state_path"

/-- The place of a setting where its section is a list. -/
def place : Member → Nat
  | .name | .bufferSize => 0
  | .description | .statePath => 1
  | .systemMessage => 2
  | .reflects => 3
  | .template => 4

def key (i : Member) : String := i.group ++ "." ++ i.label

abbrev Value : Member → Type
  | .name | .description | .template => String
  | .systemMessage | .statePath => Option String
  | .reflects => Bool
  | .bufferSize => Option Nat

def get : (i : Member) → Settings → i.Value
  | .name, s => s.name
  | .description, s => s.description
  | .systemMessage, s => s.systemMessage
  | .reflects, s => s.reflects
  | .template, s => s.template
  | .bufferSize, s => s.bufferSize
  | .statePath, s => s.statePath

open Setting in
def read : (i : Member) → Setting → Except Mismatch i.Value
  | .name | .description | .template => asText
  | .systemMessage | .statePath => asOptional asText
  | .reflects => asTruth
  | .bufferSize => asOptional asWord

/-- The value that is just a text, of a setting that is one. -/
def ofText? : (i : Member) → String → Option i.Value
  | .name, text | .description, text | .template, text => some text
  | .systemMessage, text | .statePath, text => some (some text)
  | .reflects, _ | .bufferSize, _ => none

/-- What is found of a setting in its section, by its name or, in a list, by its place. -/
def foundIn (i : Member) : Option Setting → Option Setting
  | some (.table _ fields) => fields.lookup i.label
  | some (.list _ items) => items[i.place]?
  | _ => none

end Member
end Settings

namespace Environment

/-- The text of the variable that names a setting. Of several the last counts. -/
def textOf? (env : Environment) (i : Settings.Member) : Option String :=
  (env.reverse.find? fun (name, _) => keyOf? name = some i.key).map (·.2)

/-- How a text is written again once it was taken for what it looks like. -/
def rewritten (text : String) : String :=
  match scalar text with
  | .bool b => if b then "true" else "false"
  | .integer n => String.ofList (Decimal.signed n)
  | .float x => x.write .plain
  | .text t => t
  | .nothing => text

/-- A text that looks like no truth value and no number. -/
def IsPlain (text : String) : Prop := truth? text = none ∧ integer? text = none ∧ Extended.ofText? text = none

/-- Each variable that sets anything sets a single setting. -/
def NamesMembers (env : Environment) : Prop :=
  ∀ x ∈ env, ∀ key, keyOf? x.1 = some key → ∃ i : Settings.Member, key = i.key

end Environment
end ToolAgent
