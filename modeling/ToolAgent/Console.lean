/-
The program at the console: every line that is not blank is a message of the
user, and what comes of it is printed. If the settings name a file for the
conversation, it is loaded first and saved after every turn.

Nothing here touches the outside: a run is a function of the lines, the
environment, the files and a supply of call ids.
-/
import ToolAgent.Archive
import ToolAgent.Client.Parrot
import ToolAgent.Event.Codec
import ToolAgent.Session
import ToolAgent.Settings.Sources

namespace ToolAgent

inductive Printed where
  | out (line : String)
  | err (line : String)
  deriving DecidableEq, Repr

def Printed.out? : Printed → Option String
  | .out line => some line
  | .err _ => none

def Printed.err? : Printed → Option String
  | .err line => some line
  | .out _ => none

/-- Why the program ends early. -/
inductive Failure where
  | settings (e : SettingsError)
  | blueprint (e : ConfigurationError)
  | build (e : ConfigurationError)
  | loading (e : ArchiveError)
  | saving (e : FileError)
  deriving DecidableEq, Repr

namespace Failure

def title : Failure → String
  | .settings _ => "Failed to load config"
  | .blueprint _ => "Invalid agent config"
  | .build _ => "Failed to build agent"
  | .loading _ => "Failed to load context state"
  | .saving _ => "Failed to save context state"

def cause : Failure → String
  | .settings e => e.message
  | .blueprint e | .build e => (AgentError.configuration e).message
  | .loading e => e.message
  | .saving e => e.message

/-- A text with four blanks before each of its lines. -/
def indented (s : String) : String :=
  String.ofList <|
    ' ' :: ' ' :: ' ' :: ' ' :: s.toList.flatMap fun c => if c = '\n' then "\n    ".toList else [c]

def report (f : Failure) : String :=
  "Error: " ++ f.title ++ "\n\nCaused by:\n" ++ indented f.cause

end Failure

/-- The agent at the console and its conversation. The client counts call ids. -/
structure Console where
  agent : Agent
  session : Session Nat

namespace Console

/-- The agent has the tool `echo` beside what the settings say. -/
def ofSettings (s : Settings) : Except Failure Console :=
  match s.blueprint with
  | .error e => .error (.blueprint e)
  | .ok b =>
    match { b with tools := [Tool.echo] }.build Capabilities.usual with
    | .error e => .error (.build e)
    | .ok agent => .ok ⟨agent, ⟨agent.opening, 0⟩⟩

/-- The conversation goes on from a transcript. -/
def resume (c : Console) (t : Transcript) : Console :=
  { c with session := { c.session with context := c.session.context.load t } }

def transcript (c : Console) : Transcript := c.session.context.save

def greeting : String := "Bee Assistant ready. Type a message, Ctrl-D to quit."

def print : Output → Printed
  | .event e => .out ("  [event] " ++ e.toJson.compact)
  | .response r => .out (r.chatMessage.source ++ ": " ++ r.chatMessage.contentText)
  | .error e => .err ("error: " ++ e.message)

/-- What a line says: all but the blanks at its ends, unless nothing is left. -/
def saying? (line : String) : Option String :=
  match Text.trim line.toList with
  | [] => none
  | cs => some (String.ofList cs)

/-- A turn on something that was said. -/
def say (idOf : Nat → String) (c : Console) (saying : String) : List Printed × Console :=
  let ended := c.session.turn c.agent (Parrot.client idOf) 0 [.text saying "user" none] .never
  ((outputs ended).map print, { c with session := .after ended.2 })

/-! ## Whole runs -/

/-- A run: what was printed, and the files after it. -/
structure Run where
  printed : List Printed
  files : Files
  failure : Option Failure

namespace Run

def lines (ls : List String) : String := "".intercalate (ls.map (· ++ "\n"))

def standardOutput (r : Run) : String := lines (r.printed.filterMap Printed.out?)

def standardError (r : Run) : String :=
  lines (r.printed.filterMap Printed.err? ++ (r.failure.map Failure.report).toList)

def exitCode (r : Run) : UInt32 := if r.failure.isSome then 1 else 0

/-- A run with something printed before it. -/
def behind (printed : List Printed) (r : Run) : Run := { r with printed := printed ++ r.printed }

end Run

/-- Saves the conversation, if there is a file for it. -/
def keep (c : Console) (path : Option String) (fs : Files) : Except FileError Files :=
  match path with
  | none => .ok fs
  | some path => c.transcript.save fs path

/-- Goes through the lines. -/
def converse (idOf : Nat → String) (path : Option String) :
    Console → Files → List String → Run
  | _, fs, [] => ⟨[], fs, none⟩
  | c, fs, line :: lines =>
    match saying? line with
    | none => converse idOf path c fs lines
    | some saying =>
      let (printed, c) := c.say idOf saying
      match c.keep path fs with
      | .error e => ⟨printed, fs, some (.saving e)⟩
      | .ok fs => (converse idOf path c fs lines).behind printed

/-- The console as the settings have it, with the conversation loaded. -/
def start (s : Settings) (fs : Files) : Except Failure Console :=
  match ofSettings s with
  | .error f => .error f
  | .ok c =>
    match s.statePath with
    | none => .ok c
    | some path =>
      match Transcript.load fs path with
      | .error e => .error (.loading e)
      | .ok t => .ok (c.resume t)

/-- A run with settings that are given. -/
def runWith (s : Settings) (idOf : Nat → String) (fs : Files) (lines : List String) : Run :=
  match start s fs with
  | .error f => ⟨[], fs, some f⟩
  | .ok c => (converse idOf s.statePath c fs lines).behind [.out greeting]

/-- A whole run. -/
def run (idOf : Nat → String) (fs : Files) (env : Environment) (lines : List String) : Run :=
  match Settings.load fs env none with
  | .error e => ⟨[], fs, some (.settings e)⟩
  | .ok s => runWith s idOf fs lines

end Console
end ToolAgent
