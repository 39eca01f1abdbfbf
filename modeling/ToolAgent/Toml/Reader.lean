/-
TOML documents.
-/
import ToolAgent.Toml.Scalar
import ToolAgent.Toml.Table

namespace ToolAgent.Toml

open Text (Reading expect)

/-- The parts of a key before the last, and the last. -/
def splitLast : List String → Option (List String × String)
  | [] => none
  | key :: path => some ((key :: path).dropLast, path.getLastD key)

/-- Defines the keys of a table within braces, in order. -/
def inlineFields (defs : List (List String × Toml)) : Option Fields :=
  defs.foldl (fun fs? (key, v) => do
    let fs ← fs?
    let (path, last) ← splitLast key
    fs.define .opened path last v) (some [])

mutual

/-- Reads a value inside so many brackets, in at most so many steps. -/
def readValue (level : Nat) : Nat → List Char → Reading Toml
  | 0, _ => none
  | bound + 1, cs =>
    match cs with
    | [] => none
    | '[' :: rest =>
      if level + 1 < depthLimit then (readItems (level + 1) bound (skipGap false rest)).map .array
      else none
    | '\x7b' :: rest =>
      if level + 1 < depthLimit then
        (readInline (level + 1) bound (skipBlanks rest)).andThen fun defs rest =>
          (inlineFields defs).map fun fs => (.table (fieldsToToml fs), rest)
      else none
    | c :: rest =>
      if c = '"' ∨ c = plainQuote then
        (readString (c :: rest)).map fun s => .string (String.ofList s)
      else if c = 't' ∨ c = 'f' then readBool (c :: rest)
      else readNumber (c :: rest)

/-- Reads the items of an array, gaps skipped, up to its closing bracket. -/
def readItems (level : Nat) : Nat → List Char → Reading (List Toml)
  | _, ']' :: rest => some ([], rest)
  | 0, _ => none
  | bound + 1, cs =>
    (readValue level bound cs).andThen fun v rest =>
      match skipGap false rest with
      | ',' :: rest => (readItems level bound (skipGap false rest)).map (v :: ·)
      | ']' :: rest => some ([v], rest)
      | _ => none

/-- Reads the definitions of a table within braces, up to the closing one. -/
def readInline (level : Nat) : Nat → List Char → Reading (List (List String × Toml))
  | _, '\x7d' :: rest => some ([], rest)
  | bound, cs => readDefinitions level bound cs

/-- Reads one definition or more, of which the last has no comma. -/
def readDefinitions (level : Nat) : Nat → List Char → Reading (List (List String × Toml))
  | 0, _ => none
  | bound + 1, cs =>
    (readKey cs).andThen fun key rest =>
      (expect '=' rest).andThen fun _ rest =>
        (readValue level bound (skipBlanks rest)).andThen fun v rest =>
          match skipBlanks rest with
          | ',' :: rest => (readDefinitions level bound rest).map ((key, v) :: ·)
          | '\x7d' :: rest => some ([(key, v)], rest)
          | _ => none

end

/-! ## Lines -/

inductive Line where
  | blank
  | definition (key : List String) (v : Toml)
  | header (key : List String)
  | doubleHeader (key : List String)
  deriving Repr

/-- Reads a line, which may be longer than one if its value is. -/
def readLine (cs : List Char) : Reading Line :=
  match skipBlanks cs with
  | '[' :: '[' :: rest =>
    (readKey rest).andThen fun key rest =>
      (expect ']' rest).andThen fun _ rest =>
        (expect ']' rest).andThen fun _ rest => (restOfLine rest).map (.doubleHeader key, ·)
  | '[' :: rest =>
    (readKey rest).andThen fun key rest =>
      (expect ']' rest).andThen fun _ rest => (restOfLine rest).map (.header key, ·)
  | cs =>
    match restOfLine cs with
    | some rest => some (.blank, rest)
    | none =>
      (readKey cs).andThen fun key rest =>
        (expect '=' rest).andThen fun _ rest =>
          (readValue 0 (2 * rest.length + 2) (skipBlanks rest)).andThen fun v rest =>
            (restOfLine rest).map (.definition key v, ·)

/-- All lines, at most so many. -/
def readLines : Nat → List Char → Option (List Line)
  | _, [] => some []
  | 0, _ => none
  | bound + 1, cs => do
    let (line, rest) ← readLine cs
    return line :: (← readLines bound rest)

/-- A document so far, and the header under which the next definition comes. -/
structure Draft where
  fields : Fields
  header : List String

def Draft.add (d : Draft) : Line → Option Draft
  | .blank => some d
  | .definition key v => do
    let (path, last) ← splitLast key
    return { d with fields := ← d.fields.defineIn d.header path last v }
  | .header key => do
    let (path, last) ← splitLast key
    return ⟨← d.fields.openTable path last, key⟩
  | .doubleHeader key => do
    let (path, last) ← splitLast key
    return ⟨← d.fields.openAnother path last, key⟩

def Draft.addAll : Draft → List Line → Option Draft
  | d, [] => some d
  | d, line :: lines => (d.add line).bind (·.addAll lines)

/-- A mark at the start of a text that tells its encoding. -/
def dropEncodingMark : List Char → List Char
  | '\ufeff' :: cs => cs
  | cs => cs

/-- The fields of a document; none when it is not one. -/
def read? (text : String) : Option (List (String × Toml)) := do
  let cs := dropEncodingMark text.toList
  let lines ← readLines (cs.length + 1) cs
  let d ← Draft.addAll ⟨[], []⟩ lines
  return fieldsToToml d.fields

end ToolAgent.Toml
