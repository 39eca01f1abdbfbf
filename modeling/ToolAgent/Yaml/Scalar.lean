/-
Scalars within lines of a YAML document, plain or in quotes. They may go on in further
lines: a line end stands for a blank, or, before empty lines, for nothing, and empty
lines for line ends.
-/
import ToolAgent.Text.Reading
import ToolAgent.Yaml.Cursor

namespace ToolAgent.Yaml

open Text (Reading)

/-- What a reader of a part that knows its place gives. -/
abbrev Placed (α : Type) := Option (α × Cursor)

/-- Puts characters before those that were read. -/
def Placed.behind (cs : List Char) : Placed (List Char) → Placed (List Char)
  | some (more, c) => some (cs ++ more, c)
  | none => none

/-! ## Gaps between words -/

/-- Blanks, or line ends, between words. -/
structure Fold where
  blanks : List Char
  breaks : Nat
  /-- Whether a backslash has ended the line before. -/
  escaped : Bool

namespace Fold

def empty : Fold := ⟨[], 0, false⟩

def inLine (f : Fold) : Bool := f.breaks = 0 && !f.escaped

def text (f : Fold) : List Char :=
  if f.inLine then f.blanks
  else if f.escaped then List.replicate f.breaks '\n'
  else if f.breaks = 1 then [' ']
  else List.replicate (f.breaks - 1) '\n'

/-- Goes on over blanks and line ends, at most so many. Where the text is to be indented
a tab is passed over as `onTab` says. -/
def extend (indent : Int) (onTab : Cursor → Option Cursor) : Nat → Fold → Cursor → Placed Fold
  | 0, f, c => some (f, c)
  | bound + 1, f, c =>
    match c.next with
    | none => some (f, c)
    | some x =>
      if isBreak x then extend indent onTab bound { f with blanks := [], breaks := f.breaks + 1 } c.lineBreak
      else if !isBlank x then some (f, c)
      else if f.inLine then
        extend indent onTab bound { f with blanks := f.blanks ++ [x] } (c.indent 1)
      else if x = '\t' ∧ c.column < indent then
        match onTab c with
        | some c => extend indent onTab bound f c
        | none => none
      else extend indent onTab bound f (c.indent 1)

end Fold

/-! ## Plain scalars -/

/-- Whether a colon before a character, or at the end, is a part of a word. -/
def joinsColon (inFlow : Bool) (c : Option Char) : Bool :=
  !(endsWord c || (inFlow && c.any isFlow))

/-- The word at the start of a text. -/
def plainWord (inFlow : Bool) : List Char → List Char
  | [] => []
  | c :: cs =>
    if isBlank c || isBreak c then []
    else if c = ':' && !joinsColon inFlow cs.head? then []
    else if inFlow && isFlow c then []
    else c :: plainWord inFlow cs

/-- Reads a plain scalar of at most so many words, indented at least as given. -/
def readPlain (inFlow : Bool) (indent : Int) : Nat → Cursor → Placed (List Char)
  | 0, _ => none
  | bound + 1, c =>
    if c.atBoundary || c.next = some '#' then some ([], c)
    else if inFlow && c.next = some '-' && (c.rest[1]?).any isFlow then none
    else
      let word := plainWord inFlow c.rest
      let c := c.step word.length
      if c.atEnd || !endsWord c.next then some (word, c)
      else
        match Fold.empty.extend indent Cursor.toLineEnd? c.rest.length c with
        | none => none
        | some (fold, c) =>
          if !inFlow && c.column < indent then some (word, c)
          else
            match readPlain inFlow indent bound c with
            | none => none
            | some (more, c) => some (if more.isEmpty then word else word ++ fold.text ++ more, c)

/-! ## Quoted scalars -/

/-- What a backslash and a letter stand for. -/
def escaped? : Char → Option Char
  | '0' => some '\x00'
  | 'a' => some '\x07'
  | 'b' => some '\x08'
  | 't' => some '\t'
  | '\t' => some '\t'
  | 'n' => some '\n'
  | 'v' => some '\x0b'
  | 'f' => some '\x0c'
  | 'r' => some '\r'
  | 'e' => some '\x1b'
  | ' ' => some ' '
  | '"' => some '"'
  | '/' => some '/'
  | '\\' => some '\\'
  | 'N' => some '\u0085'
  | '_' => some '\u00a0'
  | 'L' => some '\u2028'
  | 'P' => some '\u2029'
  | _ => none

/-- Reads what follows a backslash. -/
def readEscape : List Char → Reading Char
  | 'x' :: cs => Text.readCodePoint 2 cs
  | 'u' :: cs => Text.readCodePoint 4 cs
  | 'U' :: cs => Text.readCodePoint 8 cs
  | c :: cs => (escaped? c).map (·, cs)
  | [] => none

def singleQuote : Char := '\x27'

/-- Reads up to a blank, a line end or the closing quote, over at most so many
characters. Also tells whether a backslash has ended the line. -/
def quotedWord (quote : Char) : Nat → Cursor → Option (List Char × Bool × Cursor)
  | 0, _ => none
  | bound + 1, c =>
    let behind (x : Char) (c : Cursor) : Option (List Char × Bool × Cursor) :=
      (quotedWord quote bound c).map fun (word, escaped, c) => (x :: word, escaped, c)
    match c.rest with
    | [] => some ([], false, c)
    | x :: cs =>
      if isBlank x || isBreak x then some ([], false, c)
      else if x = quote then
        if quote = singleQuote ∧ cs.head? = some quote then behind quote (c.step 2)
        else some ([], false, c)
      else if x = '\\' ∧ quote ≠ singleQuote then
        if cs.head?.any isBreak then some ([], true, (c.step 1).lineBreak)
        else
          match readEscape cs with
          | some (e, rest) => behind e (c.stepTo rest)
          | none => none
      else behind x (c.step 1)

/-- Reads a quoted scalar of at most so many words after its opening quote, indented at
least as given. -/
def readQuoted (quote : Char) (indent : Int) : Nat → Cursor → Placed (List Char)
  | 0, _ => none
  | bound + 1, c =>
    if c.atBoundary || c.atEnd || c.column < indent then none
    else
      match quotedWord quote (c.rest.length + 1) c with
      | none => none
      | some (word, escaped, c) =>
        if c.next = some quote then some (word, c.step 1)
        else
          match Fold.extend indent (fun _ => none) c.rest.length { Fold.empty with escaped } c with
          | none => none
          | some (fold, c) => (readQuoted quote indent bound c).behind (word ++ fold.text)

end ToolAgent.Yaml
