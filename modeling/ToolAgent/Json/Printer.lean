/-
JSON text of a value, on one line or indented. Both are one function of a
`Spacing`, the blanks put after brackets, commas and colons; `[]` and `{}` hold
none.
-/
import ToolAgent.Json.Value
import ToolAgent.Decimal.Shortest

namespace ToolAgent.Json

/-- Blanks between tokens: a line break at a nesting depth, and what follows a colon. -/
structure Spacing where
  lineBreak : Nat → List Char
  afterColon : List Char

def Spacing.none : Spacing := ⟨fun _ => [], []⟩

/-- Two blanks a level. -/
def Spacing.indented : Spacing := ⟨fun d => '\n' :: List.replicate (2 * d) ' ', [' ']⟩

def hexDigit (d : Nat) : Char :=
  if d < 10 then Char.ofNat (48 + d) else Char.ofNat (87 + d)

/-- A character inside a quoted string: the quote, the backslash and the
characters below the blank are escaped, the rest stands for itself. -/
def escape (c : Char) : List Char :=
  if c = '"' then ['\\', '"']
  else if c = '\\' then ['\\', '\\']
  else if c = '\n' then ['\\', 'n']
  else if c = '\r' then ['\\', 'r']
  else if c = '\t' then ['\\', 't']
  else if c = '\x08' then ['\\', 'b']
  else if c = '\x0c' then ['\\', 'f']
  else if c.toNat < 32 then ['\\', 'u', '0', '0', hexDigit (c.toNat / 16), hexDigit (c.toNat % 16)]
  else [c]

def escapeAll : List Char → List Char
  | [] => []
  | c :: cs => escape c ++ escapeAll cs

def quote (s : String) : List Char := '"' :: escapeAll s.toList ++ ['"']

/-- Decimal exponents from -5 to 15 are written out, a whole number with `.0`. -/
def floatLayout : Decimal.Layout := ⟨-5, 15, ['.', '0']⟩

def writeNumber : Number → List Char
  | .int n => Decimal.signed n
  | .float x => floatLayout.write x

mutual

def write (sp : Spacing) (depth : Nat) : Json → List Char
  | .null => ['n', 'u', 'l', 'l']
  | .bool true => ['t', 'r', 'u', 'e']
  | .bool false => ['f', 'a', 'l', 's', 'e']
  | .number n => writeNumber n
  | .string s => quote s
  | .array [] => ['[', ']']
  | .array (v :: vs) =>
    '[' :: sp.lineBreak (depth + 1) ++ write sp (depth + 1) v ++ writeItems sp (depth + 1) vs
      ++ sp.lineBreak depth ++ [']']
  | .object [] => ['{', '}']
  | .object ((k, v) :: fs) =>
    '{' :: sp.lineBreak (depth + 1) ++ quote k ++ ':' :: sp.afterColon ++ write sp (depth + 1) v
      ++ writeFields sp (depth + 1) fs ++ sp.lineBreak depth ++ ['}']

/-- The items after the first, each after its comma. -/
def writeItems (sp : Spacing) (depth : Nat) : List Json → List Char
  | [] => []
  | v :: vs => ',' :: sp.lineBreak depth ++ write sp depth v ++ writeItems sp depth vs

/-- The fields after the first, each after its comma. -/
def writeFields (sp : Spacing) (depth : Nat) : List (String × Json) → List Char
  | [] => []
  | (k, v) :: fs =>
    ',' :: sp.lineBreak depth ++ quote k ++ ':' :: sp.afterColon ++ write sp depth v
      ++ writeFields sp depth fs

end

/-- The text on one line. -/
def compact (v : Json) : String := String.ofList (write .none 0 v)

/-- The text over several lines. -/
def pretty (v : Json) : String := String.ofList (write .indented 0 v)

/-- A string stands for itself, any other value for its text on one line. -/
def display : Json → String
  | .string s => s
  | v => v.compact

end ToolAgent.Json
