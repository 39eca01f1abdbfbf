/-
The parts of a YAML document in the order of its text. Where indentation alone bounds
a collection, tokens of their own stand for its bounds.
-/
import ToolAgent.Decimal.Digits
import ToolAgent.Text.Reading
import ToolAgent.Yaml.Cursor

namespace ToolAgent.Yaml

open Text (Reading hexVal? ofBase?)

/-- A tag as it is written: a handle, which stands for the start of a name, and the rest
of the name. -/
structure Tag where
  handle : String
  suffix : String
  deriving DecidableEq, Repr

inductive Token where
  /-- The directive that tells the version. -/
  | version
  /-- The directive that a handle stands for the start of a name. -/
  | handle (name start : String)
  | documentStart
  | documentEnd
  | blockSequence
  | blockMapping
  | blockEnd
  | flowSequence
  | flowSequenceEnd
  | flowMapping
  | flowMappingEnd
  /-- The mark of an item in a block. -/
  | item
  | comma
  | key
  | value
  | alias (name : String)
  | anchor (name : String)
  | tag (t : Tag)
  | plain (text : String)
  | quoted (text : String)
  deriving DecidableEq, Repr

/-- Comes before the node that it belongs to. -/
def Token.isProperty : Token → Bool
  | .anchor _ | .tag _ => true
  | _ => false

/-! ## Names -/

def isHandleChar (c : Char) : Bool := c.isAlphanum || c = '-' || c = '_'

def isNameChar (c : Char) : Bool :=
  isHandleChar c || ("#;/?:@&=+$,.!~*()[]%".toList ++ ['\x27']).contains c

/-- A character of a name that stands without brackets. -/
def isSuffixChar (c : Char) : Bool := isNameChar c && !isFlow c && c ≠ '!'

/-- Reads an octet as a percent sign and two digits. -/
def readOctet : List Char → Reading Nat
  | '%' :: a :: b :: cs => (ofBase? 16 [a, b]).map (·, cs)
  | _ => none

/-- How many octets follow a first one. -/
def octetsAfter? (n : Nat) : Option Nat :=
  if n < 128 then some 0
  else if 192 ≤ n ∧ n < 224 then some 1
  else if 224 ≤ n ∧ n < 240 then some 2
  else if 240 ≤ n ∧ n < 248 then some 3
  else none

/-- Reads octets that continue a character, and appends them to a number. -/
def readOctets (n : Nat) : Nat → List Char → Reading Nat
  | 0, cs => some (n, cs)
  | count + 1, cs =>
    (readOctet cs).andThen fun m cs =>
      if 128 ≤ m ∧ m < 192 then readOctets (256 * n + m) count cs else none

/-- Reads an escaped character: the one with the number that its octets make up. -/
def readEscaped (cs : List Char) : Reading Char :=
  (readOctet cs).andThen fun n rest =>
    match octetsAfter? n with
    | none => none
    | some count => (readOctets n count rest).andThen fun n rest => (Text.charOf? n).map (·, rest)

/-- Reads characters of a name, at most so many. -/
def readName (allowed : Char → Bool) : Nat → List Char → Reading (List Char)
  | bound + 1, c :: cs =>
    if !allowed c then some ([], c :: cs)
    else if c = '%' then
      (readEscaped (c :: cs)).andThen fun e rest => (readName allowed bound rest).behind [e]
    else (readName allowed bound cs).behind [c]
  | _, cs => some ([], cs)

/-! ## Tags -/

/-- Reads the handle of a tag: `!`, a word, and another `!` if there is one. -/
def readHandle : List Char → Reading (List Char)
  | '!' :: cs =>
    let word := '!' :: cs.takeWhile isHandleChar
    match cs.dropWhile isHandleChar with
    | '!' :: rest => some (word ++ ['!'], rest)
    | rest => some (word, rest)
  | _ => none

def isWholeHandle (cs : List Char) : Bool := 2 ≤ cs.length && cs.getLast? = some '!'

/-- Reads a tag. -/
def readTag (cs : List Char) : Reading Tag :=
  let named (handle : String) (r : Reading (List Char)) : Reading Tag :=
    r.map fun suffix => ⟨handle, String.ofList suffix⟩
  match cs with
  | '!' :: '<' :: rest =>
    (readName isNameChar rest.length rest).andThen fun name rest =>
      match rest with
      | '>' :: rest => some (⟨"", String.ofList name⟩, rest)
      | _ => none
  | cs =>
    (readHandle cs).andThen fun handle rest =>
      let suffix := readName isSuffixChar rest.length rest
      if isWholeHandle handle then
        named (String.ofList handle) (suffix.check (!·.isEmpty))
      else
        match suffix.behind (handle.drop 1) with
        | some ([], rest) => some (⟨"", "!"⟩, rest)
        | r => named "!" r

/-! ## Directives -/

/-- Reads a number of at most nine digits. -/
def readNumber (cs : List Char) : Reading Nat :=
  let ds := cs.takeWhile Char.isDigit
  if ds.isEmpty || 9 < ds.length then none
  else some (Decimal.ofDigits ds, cs.dropWhile Char.isDigit)

def readVersion (cs : List Char) : Reading Token :=
  (readNumber cs).andThen fun _ rest =>
    match rest with
    | '.' :: rest => (readNumber rest).map fun _ => .version
    | _ => none

/-- Reads the start of a name that a handle stands for. -/
def readStart (cs : List Char) : Reading (List Char) :=
  match cs with
  | '!' :: rest => (readName isNameChar rest.length rest).behind ['!']
  | c :: _ => if isSuffixChar c then readName isNameChar cs.length cs else none
  | [] => none

def readHandleMeaning (cs : List Char) : Reading Token :=
  (readHandle cs).andThen fun handle rest =>
    if handle.length = 1 || isWholeHandle handle then
      (readStart (rest.dropWhile isBlank)).andThen fun start rest =>
        if endsWord rest.head? then
          some (.handle (String.ofList handle) (String.ofList start), rest)
        else none
    else none

/-- Reads a directive after its percent sign. Unknown ones are as one that says nothing. -/
def readDirective (cs : List Char) : Reading Token :=
  let name := cs.takeWhile isHandleChar
  let rest := cs.dropWhile isHandleChar
  if name.isEmpty || !endsWord rest.head? then none
  else if name = "YAML".toList then readVersion (rest.dropWhile isBlank)
  else if name = "TAG".toList then readHandleMeaning (rest.dropWhile isBlank)
  else some (.handle "" "", rest.dropWhile (!isBreak ·))

end ToolAgent.Yaml
