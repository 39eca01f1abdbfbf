/-
The program: files, environment and standard streams around the console.
-/
import ToolAgent.Console

namespace ToolAgent.Console

/-- The text of a file, if it can be read. -/
def textOf? (path : String) : IO (Option String) := do
  try
    return some (← IO.FS.readFile path)
  catch _ =>
    return none

/-- The files that settings may come from, as they are on disk. -/
def settingsFiles : IO Files := do
  let mut files := Files.empty ["here"]
  for place in Settings.defaultPlaces do
    let path := place ++ ".toml"
    if let some text ← textOf? path then
      match files.save path text with
      | .ok saved => files := saved
      | .error _ => pure ()
  return files

/-- The variables of the process. -/
def environment : IO Environment := do
  let text := (← textOf? "/proc/self/environ").getD ""
  return (text.splitOn "\x00").filterMap fun line =>
    match line.splitOn "=" with
    | name :: value => some (name, "=".intercalate value)
    | [] => none

/-- A call id from sixteen random bytes, in groups. -/
def randomId : IO String := do
  let mut digits := ""
  for i in List.range 32 do
    if [8, 12, 16, 20].contains i then digits := digits ++ "-"
    let d ← IO.rand 0 15
    let d := if i = 12 then 4 else if i = 16 then 8 + d % 4 else d
    digits := digits ++ String.ofList [Json.hexDigit d]
  return "call_" ++ digits

/-- The transcript in a file; one that is not there is empty. -/
def loadTranscript (path : String) : IO (Except String Transcript) := do
  try
    match Transcript.ofText (← IO.FS.readFile path) with
    | .ok t => return .ok t
    | .error e => return .error e.message
  catch
    | .noFileOrDirectory .. => return .ok Transcript.empty
    | e => return .error (toString e)

/-- Saves a transcript, and makes the directory of its file. -/
def saveTranscript (path : String) (t : Transcript) : IO (Except String Unit) := do
  let parent := "/".intercalate (Files.parentParts path)
  let parent := if path.toList.head? = some '/' then "/" ++ parent else parent
  try
    if parent ≠ "" then IO.FS.createDirAll parent
    IO.FS.writeFile path t.text
    return .ok ()
  catch e =>
    return .error (toString e)

def printAll (printed : List Printed) : IO Unit := do
  for p in printed do
    match p with
    | .out line => IO.println line
    | .err line => IO.eprintln line
  (← IO.getStdout).flush

def fail (title cause : String) : IO UInt32 := do
  IO.eprintln ("Error: " ++ title ++ "\n\nCaused by:\n" ++ Failure.indented cause)
  return 1

/-- Goes through the lines of standard input. -/
partial def interact (path : Option String) (c : Console) : IO UInt32 := do
  let line ← (← IO.getStdin).getLine
  if line.isEmpty then return 0
  match saying? line with
  | none => interact path c
  | some saying =>
    let id ← randomId
    let (printed, c) := c.say (fun _ => id) saying
    printAll printed
    match path with
    | none => interact path c
    | some file =>
      match ← saveTranscript file c.transcript with
      | .ok () => interact path c
      | .error cause => fail "Failed to save context state" cause

/-- Greets and goes on. -/
def greetAndInteract (path : Option String) (c : Console) : IO UInt32 := do
  printAll [.out greeting]
  interact path c

/-- Goes on with the conversation in a file, if one is named. -/
def converseFrom (path : Option String) (c : Console) : IO UInt32 := do
  match path with
  | none => greetAndInteract path c
  | some file =>
    match ← loadTranscript file with
    | .ok t => greetAndInteract path (c.resume t)
    | .error cause => fail "Failed to load context state" cause

def program : IO UInt32 := do
  match Settings.load (← settingsFiles) (← environment) none with
  | .error e => fail "Failed to load config" e.message
  | .ok settings =>
    match ofSettings settings with
    | .error f => fail f.title f.cause
    | .ok c => converseFrom settings.statePath c

end ToolAgent.Console

def main : IO UInt32 := ToolAgent.Console.program
