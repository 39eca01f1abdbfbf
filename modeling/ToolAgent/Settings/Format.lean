/-
The formats of files with settings, by the ending of a file's name. In each of them
a document is a table.
-/
import ToolAgent.Files
import ToolAgent.Ini
import ToolAgent.Json.Reader
import ToolAgent.Json5
import ToolAgent.Ron
import ToolAgent.Toml.Datum
import ToolAgent.Yaml.Reader

namespace ToolAgent

inductive Format where
  | toml
  | json
  | yaml
  | ini
  | ron
  | json5
  deriving DecidableEq, Repr

namespace Format

/-- The endings of names, each with its format. -/
def endings : List (String × Format) :=
  [("toml", .toml), ("json", .json), ("yaml", .yaml), ("yml", .yaml), ("ini", .ini),
   ("ron", .ron), ("json5", .json5)]

/-- The format that a name's ending tells. A point at the start of a name starts no
ending. -/
def ofName? (name : String) : Option Format :=
  let ending := (name.toList.reverse.takeWhile (· ≠ '.')).reverse
  if ending.length + 1 < name.length then endings.lookup (String.ofList ending) else none

/-- The value of a document. -/
def datum? (f : Format) (text : String) : Option Datum :=
  match f with
  | .toml => (Toml.read? text).bind fun fields => Toml.datum? (.table fields)
  | .json => (Json.parse text).toOption.map Datum.ofJson
  | .yaml => Yaml.datum? text
  | .ini => Ini.datum? text
  | .ron => Ron.datum? text
  | .json5 => Json5.datum? text

/-- The text without a byte order mark at its start. -/
def withoutMark (text : String) : String :=
  match text.toList with
  | '\ufeff' :: cs => String.ofList cs
  | _ => text

/-- The fields of a document. -/
def fields? (f : Format) (text : String) : Option (List (String × Datum)) :=
  (f.datum? (withoutMark text)).bind Datum.fields?

end Format
end ToolAgent
