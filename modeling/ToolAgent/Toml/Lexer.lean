/-
The smallest parts of a TOML document: blanks, comments, line ends, strings and
bare keys.
-/
import ToolAgent.Text.Reading

namespace ToolAgent.Toml

open Text (Reading expect)

def isBlank (c : Char) : Bool := c = ' ' || c = '\t'

def skipBlanks (cs : List Char) : List Char := cs.dropWhile isBlank

/-- A character that may stand in a comment, or, with further exceptions, in a string. -/
def isPrintable (c : Char) : Bool := c = '\t' || (' ' ≤ c && c ≠ '\x7f')

def isBareKey (c : Char) : Bool := c.isAlphanum || c = '-' || c = '_'

/-- The text after a line end, which may be that of the document. -/
def lineEnd : List Char → Option (List Char)
  | [] => some []
  | '\n' :: rest => some rest
  | '\r' :: '\n' :: rest => some rest
  | _ => none

/-- The text after what may still stand in a line: blanks and a comment. -/
def restOfLine (cs : List Char) : Option (List Char) :=
  match skipBlanks cs with
  | '#' :: rest => lineEnd (rest.dropWhile isPrintable)
  | rest => lineEnd rest

/-- Skips blanks, line ends and comments. -/
def skipGap (inComment : Bool) : List Char → List Char
  | [] => []
  | '\n' :: rest => skipGap false rest
  | '\r' :: '\n' :: rest => skipGap false rest
  | c :: rest =>
    if inComment then (if isPrintable c then skipGap true rest else c :: rest)
    else if isBlank c then skipGap false rest
    else if c = '#' then skipGap true rest
    else c :: rest

/-! ## Strings -/

/-- What a backslash and a letter stand for. -/
def escaped? : Char → Option Char
  | 'b' => some '\x08'
  | 't' => some '\t'
  | 'n' => some '\n'
  | 'f' => some '\x0c'
  | 'r' => some '\r'
  | '"' => some '"'
  | '\\' => some '\\'
  | _ => none

/-- Reads what follows a backslash. -/
def readEscape : List Char → Reading Char
  | 'u' :: cs => Text.readCodePoint 4 cs
  | 'U' :: cs => Text.readCodePoint 8 cs
  | c :: cs => (escaped? c).map (·, cs)
  | [] => none

/-- Reads a string in one line, after its opening quote, over at most so many characters. -/
def readBasic : Nat → List Char → Reading (List Char)
  | bound + 1, c :: cs =>
    if c = '"' then some ([], cs)
    else if c = '\\' then (readEscape cs).andThen fun e rest => (readBasic bound rest).behind [e]
    else if isPrintable c then (readBasic bound cs).behind [c]
    else none
  | _, _ => none

/-- The quote of strings without escapes. -/
def plainQuote : Char := '\x27'

/-- Reads a string in one line without escapes, after its opening quote. -/
def readLiteral : List Char → Reading (List Char)
  | [] => none
  | c :: cs =>
    if c = plainQuote then some ([], cs)
    else if isPrintable c then (readLiteral cs).behind [c]
    else none

/-- Skips blanks and line ends. -/
def skipLines : List Char → List Char
  | '\n' :: cs => skipLines cs
  | '\r' :: '\n' :: cs => skipLines cs
  | c :: cs => if isBlank c then skipLines cs else c :: cs
  | [] => []

/-- What follows a backslash that ends its line goes on at the next character that
is neither blank nor a line end. -/
def folded? (cs : List Char) : Option (List Char) :=
  match skipBlanks cs with
  | '\n' :: rest => some (skipLines rest)
  | '\r' :: '\n' :: rest => some (skipLines rest)
  | _ => none

/-- Reads a string over several lines up to its end, over at most so many characters.
Three quotes end it, and up to two more before them are its last characters. Line
ends are read as line feeds. -/
def readLong (quote : Char) : Nat → List Char → Reading (List Char)
  | bound + 1, c :: cs =>
    if c = quote then
      let run := (cs.takeWhile (· = quote)).length + 1
      if run < 3 then (readLong quote bound cs).behind [c]
      else if run < 6 then some (List.replicate (run - 3) quote, cs.drop (run - 1))
      else none
    else if c = '\\' ∧ quote ≠ plainQuote then
      match folded? cs with
      | some rest => readLong quote bound rest
      | none => (readEscape cs).andThen fun e rest => (readLong quote bound rest).behind [e]
    else if c = '\n' then (readLong quote bound cs).behind [c]
    else if c = '\r' then
      match cs with
      | '\n' :: rest => (readLong quote bound rest).behind ['\n']
      | _ => none
    else if isPrintable c then (readLong quote bound cs).behind [c]
    else none
  | _, _ => none

/-- A line end directly after the opening quotes does not count. -/
def dropFirstLineEnd : List Char → List Char
  | '\n' :: cs => cs
  | '\r' :: '\n' :: cs => cs
  | cs => cs

/-- Reads a string in one line. -/
def readShort : List Char → Reading (List Char)
  | c :: cs =>
    if c = '"' then readBasic cs.length cs
    else if c = plainQuote then readLiteral cs
    else none
  | [] => none

/-- Reads a string of any kind. -/
def readString (cs : List Char) : Reading (List Char) :=
  match cs with
  | a :: b :: c :: rest =>
    if a = b ∧ b = c ∧ (a = '"' ∨ a = plainQuote) then readLong a rest.length (dropFirstLineEnd rest)
    else readShort cs
  | _ => readShort cs

/-! ## Keys -/

def readBareKey (cs : List Char) : Reading (List Char) :=
  match cs.takeWhile isBareKey with
  | [] => none
  | key => some (key, cs.dropWhile isBareKey)

def readSimpleKey : List Char → Reading String
  | '"' :: cs => (readShort ('"' :: cs)).map String.ofList
  | c :: cs =>
    (if c = plainQuote then readShort (c :: cs) else readBareKey (c :: cs)).map String.ofList
  | [] => none

/-- Keys may have fewer parts than this, and brackets nest less deep. -/
def depthLimit : Nat := 80

/-- Reads the parts of a dotted key, with blanks around them. -/
def readParts : Nat → List Char → Reading (List String)
  | 0, _ => none
  | bound + 1, cs =>
    (readSimpleKey (skipBlanks cs)).andThen fun part rest =>
      match skipBlanks rest with
      | '.' :: rest => (readParts bound rest).map (part :: ·)
      | rest => some ([part], rest)

def readKey (cs : List Char) : Reading (List String) :=
  (readParts cs.length cs).check (·.length < depthLimit)

end ToolAgent.Toml
