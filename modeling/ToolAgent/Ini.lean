/-
INI documents: lines `key = value` under headers in brackets. All values are texts.

A key goes on up to `=` or `:`, over line ends too; a value goes on to the end of its
line, or to the quote that closes it. A backslash escapes in all of them. A comment
has a line to itself, from its first character on.
-/
import ToolAgent.Datum
import ToolAgent.Text.Blank
import ToolAgent.Text.Reading

namespace ToolAgent.Ini

open Text (Reading)

/-- A header, or none above the first one, and the lines under it. -/
structure Part where
  header : Option String
  lines : List (String × String)
  deriving Repr

/-! ## Texts -/

def isLineEnd (c : Char) : Bool := c = '\n' || c = '\r'

/-- What a backslash and a letter stand for; other characters stand for themselves. -/
def escaped : Char → List Char
  | '0' => ['\x00']
  | 'a' => ['\x07']
  | 'b' => ['\x08']
  | 't' => ['\t']
  | 'r' => ['\r']
  | 'n' => ['\n']
  | '\n' => []
  | c => [c]

/-- Reads text up to a character that ends it, which is left; or, where that may be, up
to the end of the document. -/
def readUntil (stops : Char → Bool) (mayEnd : Bool) : Nat → List Char → Reading (List Char)
  | 0, _ => none
  | _, [] => if mayEnd then some ([], []) else none
  | bound + 1, c :: cs =>
    if stops c then some ([], c :: cs)
    else if c = '\\' then
      match cs with
      | [] => none
      | 'x' :: cs =>
        (Text.readCodePoint 4 cs).andThen fun d rest => (readUntil stops mayEnd bound rest).behind [d]
      | d :: cs => (readUntil stops mayEnd bound cs).behind (escaped d)
    else (readUntil stops mayEnd bound cs).behind [c]

/-- Reads text up to and past a character. -/
def readPast (stop : Char) (cs : List Char) : Reading (List Char) :=
  (readUntil (· = stop) false (cs.length + 1) cs).andThen fun text rest => some (text, rest.drop 1)

def readKey (cs : List Char) : Reading (List Char) :=
  readUntil (fun c => c = '=' || c = ':') false (cs.length + 1) cs

/-- Reads a value, which may begin with a quote. -/
def readValue (cs : List Char) : Reading (List Char) :=
  match cs.dropWhile fun c => Text.isBlank c && !isLineEnd c with
  | [] => some ([], [])
  | c :: rest =>
    if c = '"' ∨ c = '\x27' then readPast c rest
    else readUntil isLineEnd true (rest.length + 2) (c :: rest)

/-! ## Lines -/

/-- A document so far. The last part comes first, and its last line too. -/
structure Draft where
  part : Part
  before : List Part

/-- The place where a reader stands. -/
structure Cursor where
  rest : List Char
  /-- Whether a line starts here. -/
  fresh : Bool

def skipBlanks (fresh : Bool) : List Char → Cursor
  | [] => ⟨[], fresh⟩
  | c :: cs => if Text.isBlank c then skipBlanks (c = '\n') cs else ⟨c :: cs, fresh⟩

def asText (cs : List Char) : String := String.ofList (Text.trim cs)

/-- All lines. A key that was read waits for its value; a later one takes its place. -/
def readLines : Nat → Option String → Draft → Cursor → Option Draft
  | 0, _, _, _ => none
  | bound + 1, key, d, c =>
    let c := skipBlanks c.fresh c.rest
    match c.rest with
    | [] => some d
    | x :: cs =>
      if x = ';' ∨ x = '#' then
        if c.fresh then
          readLines bound key d ⟨(cs.dropWhile (· ≠ '\n')).drop 1, true⟩
        else none
      else if x = '[' then
        match readPast ']' cs with
        | none => none
        | some (name, rest) =>
          readLines bound key ⟨⟨some (asText name), []⟩, d.part :: d.before⟩ ⟨rest, false⟩
      else if x = '=' ∨ x = ':' then
        match key, readValue cs with
        | some key, some (value, rest) =>
          let part := { d.part with lines := (key, asText value) :: d.part.lines }
          readLines bound none { d with part := part } ⟨rest, false⟩
        | _, _ => none
      else
        match readKey (x :: cs) with
        | none => none
        | some (key, rest) =>
          let key := asText key
          readLines bound (if key = "" then none else some key) d ⟨rest, false⟩

/-- The parts of a document in order, the one above all headers first. -/
def parts? (text : String) : Option (List Part) :=
  let cs := text.toList
  (readLines (cs.length + 2) none ⟨⟨none, []⟩, []⟩ ⟨cs, true⟩).map fun d =>
    (d.part :: d.before).reverse.map fun p => { p with lines := p.lines.reverse }

/-- The lines of a part as fields. -/
def Part.fields (p : Part) : List (String × Datum) := p.lines.map fun (k, v) => (k, .text v)

/-- A document as a table. Parts are fields of it, and lines above all headers are too;
of equal ones the last counts, as a whole. -/
def datum? (text : String) : Option Datum :=
  (parts? text).map fun parts => .ofFields (parts.flatMap fun p =>
    match p.header with
    | none => p.fields
    | some name => [(name, .ofFields p.fields)])

end ToolAgent.Ini
