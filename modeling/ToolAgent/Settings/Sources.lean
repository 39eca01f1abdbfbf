/-
Where settings come from: a default file, a file that is asked for, and the
environment, in rising rank.
-/
import ToolAgent.Setting.Environment
import ToolAgent.Setting.Typed
import ToolAgent.Settings
import ToolAgent.Settings.Format

namespace ToolAgent

inductive SettingsError where
  | malformed (file : String)
  | mismatch (m : Setting.Mismatch)
  deriving DecidableEq, Repr

def SettingsError.message : SettingsError → String
  | .malformed file => "parse error in " ++ file
  | .mismatch m => m.message

namespace Settings

/-! ## Types -/

open Setting (Section Mismatch asText asTruth asWord asOptional)

/-- The settings in a table. Those that are absent are as usual, and further ones
do not count. -/
def ofSetting (s : Setting) : Except Mismatch Settings := do
  let all ← Section.ofSetting "AppConfig" [] s
  let agent ← all.inner 0 "agent" "AgentSection"
  let context ← all.inner 1 "context" "ContextSection"
  return {
    name := ← agent.read 0 "name" usual.name asText
    description := ← agent.read 1 "description" usual.description asText
    systemMessage := ← agent.read 2 "system_message" usual.systemMessage (asOptional asText)
    reflects := ← agent.read 3 "reflect_on_tool_use" usual.reflects asTruth
    template := ← agent.read 4 "tool_call_summary_format" usual.template asText
    bufferSize := ← context.read 0 "buffer_size" usual.bufferSize (asOptional asWord)
    statePath := ← context.read 1 "state_path" usual.statePath (asOptional asText) }

/-! ## Files -/

/-- The places of the default file, of which the first that is there counts. -/
def defaultPlaces : List String := ["config/default", "../config/default", "default"]

def defaultFile? (fs : Files) : Option String :=
  defaultPlaces.find? fun place => fs.exists? (place ++ ".toml")

/-- A path in its plainest form. -/
def plainPath (path : String) : String :=
  let text := "/".intercalate ((Files.parts path).filter (· ≠ "."))
  if path.toList.head? = some '/' then "/" ++ text else text

/-- A file and the format that its name tells. -/
structure Document where
  file : String
  format : Format
  deriving DecidableEq, Repr

/-- The names that a path may be short for: itself with an ending. A path that ends in
no name is short for none. -/
def longNames (path : String) : List Document :=
  let name := (Files.parts path).getLastD ""
  if name = "" ∨ name = ".." then []
  else Format.endings.map fun (ending, format) => ⟨path ++ "." ++ ending, format⟩

/-- The document that a path or a place stands for: the file itself, if its name tells
a format, or the first one with an ending added, unless a file without it is in the
way. -/
def documentAt? (fs : Files) (path : String) : Option Document :=
  let path := plainPath path
  if fs.isFile path then
    (Format.ofName? ((Files.parts path).getLastD "")).map fun format => ⟨path, format⟩
  else (longNames path).find? fun d => fs.isFile d.file

/-- The settings in a file, if there is one. -/
def fileSource (fs : Files) (path : String) : Except SettingsError Setting.Source :=
  match documentAt? fs path with
  | none => .ok []
  | some d =>
    match fs.read d.file with
    | .error _ => .ok []
    | .ok text =>
      match d.format.fields? text with
      | none => .error (.malformed d.file)
      | some fields => .ok (Setting.ofFields d.file fields)

/-- The file that is asked for, if it is there. -/
def explicitFile? (fs : Files) (explicit : Option String) : Option String :=
  explicit.filter (fs.exists? ·)

/-! ## All sources -/

/-- All settings, the environment over the file that is asked for over the default
file. -/
def load (fs : Files) (env : Environment) (explicit : Option String) :
    Except SettingsError Settings := do
  let files := (defaultFile? fs).toList ++ (explicitFile? fs explicit).toList
  let sources ← files.mapM (fileSource fs)
  (ofSetting (Setting.assemble (sources ++ [env.source]))).mapError .mismatch

end Settings
end ToolAgent
