/-
RON documents: tables of named fields in parentheses or of quoted keys in braces,
lists in brackets or parentheses, and scalars. A name before a parenthesis says
nothing about the data.
-/
import ToolAgent.Datum
import ToolAgent.Text.Gap
import ToolAgent.Text.Reading

namespace ToolAgent.Ron

open Text (Reading afterWord? hexVal?)

def isSpace (c : Char) : Bool := c = ' ' || c = '\t' || c = '\n' || c = '\r'

def gaps : Text.Gap := ⟨isSpace, (· = '\n'), true⟩

def gap (cs : List Char) : List Char := gaps.after cs

/-! ## Names -/

def isNameStart (c : Char) : Bool := c.isAlpha || c = '_'

def isNamePart (c : Char) : Bool := c.isAlphanum || c = '_'

/-- A character that a name may hold if it is marked by `r#`. -/
def isMarkedPart (c : Char) : Bool := isNamePart c || c = '.' || c = '+' || c = '-'

/-- Reads a name, after which no character of a marked one may follow. -/
def readName : List Char → Reading (List Char)
  | 'r' :: '#' :: cs =>
    match cs.takeWhile isMarkedPart with
    | [] => none
    | name => some (name, cs.dropWhile isMarkedPart)
  | ['r'] => none
  | 'r' :: '"' :: _ => none
  | c :: cs =>
    let rest := cs.dropWhile isNamePart
    if !isNameStart c || rest.head?.any isMarkedPart then none
    else some (c :: cs.takeWhile isNamePart, rest)
  | [] => none

/-- The text after a word that is a whole name. -/
def afterName? (word : String) (cs : List Char) : Option (List Char) :=
  (afterWord? word.toList cs).filter fun rest => !rest.head?.any isNamePart

/-! ## Texts -/

def escaped? : Char → Option Char
  | '\x27' => some '\x27'
  | '"' => some '"'
  | '\\' => some '\\'
  | 'n' => some '\n'
  | 'r' => some '\r'
  | 't' => some '\t'
  | '0' => some '\x00'
  | _ => none

/-- Reads what follows a backslash. -/
def readEscape : List Char → Reading Char
  | 'x' :: cs => Text.readCodePoint 2 cs
  | 'u' :: '\x7b' :: cs =>
    let isHex (c : Char) : Bool := (hexVal? c).isSome
    let ds := cs.takeWhile isHex
    match cs.dropWhile isHex with
    | '\x7d' :: rest =>
      if ds.isEmpty || 6 < ds.length then none else (Text.codePoint? ds).map (·, rest)
    | _ => none
  | c :: cs => (escaped? c).map (·, cs)
  | [] => none

/-- Reads a string after its opening quote, over at most so many characters. -/
def readString : Nat → List Char → Reading (List Char)
  | bound + 1, c :: cs =>
    if c = '"' then some ([], cs)
    else if c = '\\' then (readEscape cs).andThen fun e rest => (readString bound rest).behind [e]
    else (readString bound cs).behind [c]
  | _, _ => none

/-- Reads text up to and past a word. -/
def readPast (stop : List Char) : List Char → Reading (List Char)
  | [] => none
  | c :: cs =>
    match afterWord? stop (c :: cs) with
    | some rest => some ([], rest)
    | none => (readPast stop cs).behind [c]

/-- Reads a string without escapes: between quotes, with as many `#` after the last one
as before the first. -/
def readPlain (cs : List Char) : Reading (List Char) :=
  let marks := cs.takeWhile (· = '#')
  match cs.drop marks.length with
  | '"' :: rest => readPast ('"' :: marks) rest
  | _ => none

/-- Reads a character after its opening quote. -/
def readChar (cs : List Char) : Reading (List Char) :=
  let closed (c : Char) (rest : List Char) : Reading (List Char) :=
    match rest with
    | '\x27' :: rest => some ([c], rest)
    | _ => none
  match cs with
  | '\\' :: rest => (readEscape rest).andThen closed
  | c :: rest => if c = '\x27' then none else closed c rest
  | [] => none

/-- Reads a string or a character. -/
def readText : List Char → Reading String
  | '"' :: cs => (readString cs.length cs).map String.ofList
  | 'r' :: cs => (readPlain cs).map String.ofList
  | '\x27' :: cs => (readChar cs).map String.ofList
  | _ => none

/-! ## Numbers and words -/

def isWholePart (c : Char) : Bool := (hexVal? c).isSome || c = '_'

def isDecimalPart (c : Char) : Bool :=
  c.isDigit || Extended.isExponentMark c || c = '.' || c = '+' || c = '-' || c = '_'

/-- Reads a whole number after its sign, in base ten or in the one that it begins with.
It fits an unsigned word, or a signed one if it has a sign. -/
def readWhole (signed negative : Bool) (cs : List Char) : Reading Int :=
  let (base, cs) := match cs with
    | '0' :: 'x' :: cs => (16, cs)
    | '0' :: 'o' :: cs => (8, cs)
    | '0' :: 'b' :: cs => (2, cs)
    | cs => (10, cs)
  match cs.takeWhile isWholePart with
  | [] => none
  | d :: ds =>
    if d = '_' then none
    else
      (Text.ofBase? base ((d :: ds).filter (· ≠ '_'))).bind fun n =>
        let v : Int := if negative then -n else n
        if (if signed then Word.Signed v else Word.Unsigned v) then
          some (v, cs.dropWhile isWholePart)
        else none

/-- Reads a number in base ten, of any size. -/
def readDecimal (cs : List Char) : Reading Datum :=
  (Extended.ofText? (String.ofList (cs.takeWhile isDecimalPart))).map fun x =>
    (.float x, cs.dropWhile isDecimalPart)

/-- Reads a number: a whole one, or else a decimal. -/
def readNumber (cs : List Char) : Reading Datum :=
  let (negative, body) := Extended.splitSign cs
  let signed : Bool := body.length < cs.length
  if (body.takeWhile isWholePart).length < (body.takeWhile isDecimalPart).length then readDecimal cs
  else
    match readWhole signed negative body with
    | some (n, rest) => some (.number n, rest)
    | none => readDecimal cs

/-- The words that are values. -/
def words : List (String × Datum) :=
  [("true", .bool true), ("false", .bool false), ("None", .nothing),
   ("inf", .float (.infinite false)), ("-inf", .float (.infinite true)), ("NaN", .float .nan)]

def readWord (cs : List Char) : Reading Datum :=
  words.findSome? fun (word, v) => (afterName? word cs).map (v, ·)

/-- Reads a value that holds no others. -/
def readScalar (cs : List Char) : Reading Datum :=
  match readText cs with
  | some (s, rest) => some (.text s, rest)
  | none =>
    match cs with
    | c :: _ => if c.isDigit || c = '+' || c = '-' || c = '.' then readNumber cs else none
    | [] => none

/-! ## Values -/

/-- Values nest no deeper than this. -/
def depthLimit : Nat := 128

/-- Whether a named field stands at the start of a text, none where the text ends before
that shows. -/
def startsField? (cs : List Char) : Option Bool :=
  match readName cs with
  | none => some false
  | some (_, rest) =>
    match gap rest with
    | [] => none
    | c :: _ => some (c = ':')

mutual

/-- Reads a value within so many others, in at most so many steps. -/
def readValue : Nat → Nat → List Char → Reading Datum
  | 0, _, _ => none
  | bound + 1, level, cs =>
    if depthLimit < level then none
    else
      match readWord cs, afterName? "Some" cs, readName cs with
      | some r, _, _ => some r
      | none, some rest, _ => readPresent bound level (gap rest)
      | none, none, some (_, rest) => readParenthesised bound level (gap rest)
      | none, none, none =>
        match cs with
        | '(' :: ')' :: rest => some (.nothing, rest)
        | '(' :: rest => readParenthesised bound level ('(' :: rest)
        | '[' :: rest => (readItems bound ']' level (gap rest)).map .list
        | '\x7b' :: rest => (readFields bound '\x7d' readText level (gap rest)).map .ofFields
        | cs => readScalar cs

/-- Reads a value in parentheses by itself. -/
def readPresent : Nat → Nat → List Char → Reading Datum
  | 0, _, _ => none
  | bound + 1, level, cs =>
    match cs with
    | '(' :: rest =>
      (readItems bound ')' level (gap rest)).andThen fun items rest =>
        match items with
        | [v] => some (v, rest)
        | _ => none
    | _ => none

/-- Reads fields or items in parentheses. Without any there is nothing. -/
def readParenthesised : Nat → Nat → List Char → Reading Datum
  | 0, _, _ => none
  | bound + 1, level, cs =>
    match cs with
    | '(' :: rest =>
      match startsField? (gap rest) with
      | none => none
      | some true =>
        let readKey (cs : List Char) : Reading String := (readName cs).map String.ofList
        (readFields bound ')' readKey level (gap rest)).map .ofFields
      | some false => (readItems bound ')' level (gap rest)).map .list
    | cs => some (.nothing, cs)

/-- Reads items up to and past their end. -/
def readItems : Nat → Char → Nat → List Char → Reading (List Datum)
  | 0, _, _, _ => none
  | _, _, _, [] => none
  | bound + 1, close, level, c :: cs =>
    if c = close then some ([], cs)
    else
      (readValue bound (level + 1) (c :: cs)).andThen fun v rest =>
        match gap rest with
        | ',' :: rest => (readItems bound close level (gap rest)).map (v :: ·)
        | d :: rest => if d = close then some ([v], rest) else none
        | [] => none

/-- Reads fields up to and past their end. -/
def readFields : Nat → Char → (List Char → Reading String) → Nat → List Char →
    Reading (List (String × Datum))
  | 0, _, _, _, _ => none
  | _, _, _, _, [] => none
  | bound + 1, close, readKey, level, c :: cs =>
    if c = close then some ([], cs)
    else
      (readKey (c :: cs)).andThen fun key rest =>
        match gap rest with
        | ':' :: rest =>
          (readValue bound (level + 1) (gap rest)).andThen fun v rest =>
            match gap rest with
            | ',' :: rest =>
              (readFields bound close readKey level (gap rest)).map ((key, v) :: ·)
            | d :: rest => if d = close then some ([(key, v)], rest) else none
            | [] => none
        | _ => none

end

/-! ## Documents -/

/-- What may be asked for at the start of a document; none of it matters for plain data. -/
def extensions : List String := ["unwrap_newtypes", "implicit_some", "unwrap_variant_newtypes"]

/-- The text after words with gaps after each of them. -/
def afterWords? : List String → List Char → Option (List Char)
  | [], cs => some cs
  | w :: ws, cs => (afterWord? w.toList cs).bind fun rest => afterWords? ws (gap rest)

/-- The text after the names of extensions. -/
def afterExtensions? : Nat → List Char → Option (List Char)
  | 0, _ => none
  | bound + 1, cs => do
    let (name, rest) ← readName cs
    if extensions.contains (String.ofList name) then
      match gap rest with
      | ',' :: rest =>
        if (gap rest).head?.any isNamePart then afterExtensions? bound (gap rest) else some (gap rest)
      | rest => some rest
    else none

/-- The text after the headers that ask for extensions. -/
def afterHeaders? : Nat → List Char → Option (List Char)
  | bound + 1, '#' :: cs => do
    let rest ← afterWords? ["#", "!", "[", "enable", "("] ('#' :: cs)
    let rest ← afterExtensions? bound rest
    afterHeaders? bound (← afterWords? [")", "]"] (gap rest))
  | _, cs => some cs

/-- The value of a document. -/
def datum? (text : String) : Option Datum :=
  let cs := text.toList
  match (afterHeaders? cs.length (gap cs)).bind (readValue (3 * cs.length + 3) 0 ·) with
  | some (v, rest) => if (gap rest).isEmpty then some v else none
  | none => none

end ToolAgent.Ron
