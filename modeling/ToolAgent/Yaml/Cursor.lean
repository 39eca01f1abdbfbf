/-
A place in a YAML document: the text from there on, and where in its line it is.
Blanks at the start of a line indent what follows, so a place also tells whether
anything else has been before it in its line.
-/
namespace ToolAgent.Yaml

def isBlank (c : Char) : Bool := c = ' ' || c = '\t'

def isBreak (c : Char) : Bool := c = '\n' || c = '\r'

/-- The characters that bound collections in brackets and their items. -/
def isFlow (c : Char) : Bool :=
  c = ',' || c = '[' || c = ']' || c = '\x7b' || c = '\x7d'

/-- Whether a line ends where a character, or none, comes next. -/
def endsLine (c : Option Char) : Bool := c.all isBreak

/-- Whether a word ends where a character, or none, comes next. -/
def endsWord (c : Option Char) : Bool := c.all fun c => isBlank c || isBreak c

structure Cursor where
  rest : List Char
  /-- How many characters are before. -/
  index : Nat
  line : Nat
  column : Nat
  /-- Whether only blanks are before in the line. -/
  fresh : Bool
  deriving Repr

namespace Cursor

def start (cs : List Char) : Cursor := ⟨cs, 0, 0, 0, true⟩

def next (c : Cursor) : Option Char := c.rest.head?

def atEnd (c : Cursor) : Bool := c.rest.isEmpty

def atLineEnd (c : Cursor) : Bool := endsLine c.next

/-- Passes over blanks. -/
def indent (c : Cursor) (n : Nat) : Cursor :=
  { c with rest := c.rest.drop n, index := c.index + n, column := c.column + n }

/-- Passes over other characters of the line. -/
def step (c : Cursor) (n : Nat) : Cursor := { c.indent n with fresh := c.fresh && n = 0 }

/-- Passes over the characters before a rest of the line. -/
def stepTo (c : Cursor) (rest : List Char) : Cursor := c.step (c.rest.length - rest.length)

/-- Passes over a line end. -/
def lineBreak (c : Cursor) : Cursor :=
  match c.rest with
  | '\r' :: '\n' :: rest => ⟨rest, c.index + 2, c.line + 1, 0, true⟩
  | _ :: rest => ⟨rest, c.index + 1, c.line + 1, 0, true⟩
  | [] => c

/-- Passes over the rest of the line. -/
def skipLine (c : Cursor) : Cursor := c.step (c.rest.takeWhile (!isBreak ·)).length

/-- Passes over blanks and a comment, which must have a blank before it. Gives the
blanks. -/
def skipBlanks? (c : Cursor) : Option (List Char × Cursor) :=
  let blanks := c.rest.takeWhile isBlank
  let after := c.indent blanks.length
  if after.next ≠ some '#' then some (blanks, after)
  else if blanks.isEmpty then none
  else some (blanks, after.skipLine)

/-- Passes over what may still stand in a line after its last part. -/
def toLineEnd? (c : Cursor) : Option Cursor :=
  match c.skipBlanks? with
  | some (_, c) => if c.atLineEnd then some c else none
  | none => none

/-- Whether a line of three such characters, which bounds documents, starts here. -/
def atMark (c : Cursor) (x : Char) : Bool :=
  c.column = 0 && [x, x, x].isPrefixOf c.rest && endsWord c.rest[3]?

def atBoundary (c : Cursor) : Bool := c.atMark '-' || c.atMark '.'

end Cursor
end ToolAgent.Yaml
