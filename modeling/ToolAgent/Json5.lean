/-
JSON5 documents: JSON with comments, commas at the end of lists, names without
quotes, two kinds of quotes and more ways to write numbers.
-/
import ToolAgent.Datum
import ToolAgent.Text.Alphanumeric
import ToolAgent.Text.Blank
import ToolAgent.Text.Gap
import ToolAgent.Text.Reading

namespace ToolAgent.Json5

open Text (Reading afterWord? hexVal?)

/-! ## Gaps -/

def isLineEnd (c : Char) : Bool := c = '\n' || c = '\r' || c = '\u2028' || c = '\u2029'

def isSpace (c : Char) : Bool := c = '\ufeff' || (Text.isBlank c && c ≠ '\u0085')

def gaps : Text.Gap := ⟨isSpace, isLineEnd, false⟩

def gap (cs : List Char) : List Char := gaps.after cs

/-! ## Strings and names -/

def isTrailingSurrogate (n : Nat) : Bool := 0xDC00 ≤ n && n ≤ 0xDFFF

def isLeadingSurrogate (n : Nat) : Bool := 0xD800 ≤ n && n ≤ 0xDBFF

/-- Reads a number of so many hexadecimal digits. -/
def readHex (width : Nat) (cs : List Char) : Reading Nat :=
  if cs.length < width then none else (Text.ofBase? 16 (cs.take width)).map (·, cs.drop width)

/-- Reads the code point after `\u`. A leading surrogate needs the escape of a trailing
one after it. -/
def readUnit (cs : List Char) : Reading Char :=
  (readHex 4 cs).andThen fun n rest =>
    if isLeadingSurrogate n then
      match rest with
      | '\\' :: 'u' :: rest =>
        (readHex 4 rest).andThen fun m rest =>
          if isTrailingSurrogate m then
            some (Char.ofNat ((n - 0xD800) * 1024 + (m - 0xDC00) + 0x10000), rest)
          else none
      | _ => none
    else (Text.charOf? n).map (·, rest)

/-- What a backslash and a letter stand for; other characters stand for themselves. -/
def escaped? (c : Char) : Option Char :=
  match c with
  | 'b' => some '\x08'
  | 'f' => some '\x0c'
  | 'n' => some '\n'
  | 'r' => some '\r'
  | 't' => some '\t'
  | 'v' => some '\x0b'
  | '0' => some '\x00'
  | c => if c.isDigit then none else some c

/-- Reads what follows a backslash. A line end is left out. -/
def readEscape : List Char → Reading (List Char)
  | '\r' :: '\n' :: cs => some ([], cs)
  | 'x' :: cs => ((readHex 2 cs).map fun n => [Char.ofNat n])
  | 'u' :: cs => (readUnit cs).map ([·])
  | c :: cs => if isLineEnd c then some ([], cs) else (escaped? c).map ([·], cs)
  | [] => none

/-- Reads a string after its opening quote, over at most so many characters. -/
def readString (quote : Char) : Nat → List Char → Reading (List Char)
  | bound + 1, c :: cs =>
    if c = quote then some ([], cs)
    else if c = '\\' then (readEscape cs).andThen fun e rest => (readString quote bound rest).behind e
    else if isLineEnd c then none
    else (readString quote bound cs).behind [c]
  | _, _ => none

def isNameStart (c : Char) : Bool :=
  c = '$' || c = '_' || c.isAlpha || (127 < c.toNat && Text.isAlphanumeric c)

def isNamePart (c : Char) : Bool :=
  isNameStart c || c.isDigit || c = '\u200c' || c = '\u200d'

/-- Reads a name, over at most so many characters. -/
def readName (allowed : Char → Bool) : Nat → List Char → Reading (List Char)
  | bound + 1, '\\' :: 'u' :: cs =>
    (readUnit cs).andThen fun c rest => (readRest bound rest).behind [c]
  | bound + 1, c :: cs => if allowed c then (readRest bound cs).behind [c] else none
  | _, _ => none
where
  readRest (bound : Nat) (cs : List Char) : Reading (List Char) :=
    match readName isNamePart bound cs with
    | none => some ([], cs)
    | some r => some r

def readKey : List Char → Reading String
  | [] => none
  | c :: cs =>
    (if c = '"' ∨ c = '\x27' then readString c (cs.length + 1) cs
      else readName isNameStart (cs.length + 2) (c :: cs)).map String.ofList

/-! ## Numbers -/

/-- The number that a plain numeral stands for: a whole number has no point and no
exponent, and must fit a word. -/
def decimal? (negative : Bool) (cs : List Char) : Option Datum :=
  if cs.all Char.isDigit then (Word.signed? negative cs).map .number
  else
    match Extended.ofUnsigned? negative cs with
    | some (.finite x) => some (.float (.finite x))
    | _ => none

/-- Reads the digits of a numeral: a zero, or digits that start with another one. -/
def readWhole : List Char → Reading (List Char)
  | '0' :: cs => some (['0'], cs)
  | cs =>
    match cs.takeWhile Char.isDigit with
    | [] => none
    | ds => some (ds, cs.dropWhile Char.isDigit)

/-- Reads an exponent with its mark, or nothing. -/
def readExponent : List Char → List Char × List Char
  | e :: cs =>
    if Extended.isExponentMark e then
      let (sign, cs') := match cs with
        | '+' :: cs => (['+'], cs)
        | '-' :: cs => (['-'], cs)
        | cs => ([], cs)
      match cs'.takeWhile Char.isDigit with
      | [] => ([], e :: cs)
      | ds => (e :: sign ++ ds, cs'.dropWhile Char.isDigit)
    else ([], e :: cs)
  | [] => ([], [])

/-- Reads a numeral in base ten. Digits may be missing on one side of the point. -/
def readNumeral (cs : List Char) : Reading (List Char) :=
  let withExponent (ds rest : List Char) : Reading (List Char) :=
    let (e, rest) := readExponent rest
    some (ds ++ e, rest)
  match readWhole cs with
  | some (ds, '.' :: rest) =>
    withExponent (ds ++ '.' :: rest.takeWhile Char.isDigit) (rest.dropWhile Char.isDigit)
  | some (ds, rest) => withExponent ds rest
  | none =>
    match cs with
    | '.' :: rest =>
      match rest.takeWhile Char.isDigit with
      | [] => none
      | ds => withExponent ('.' :: ds) (rest.dropWhile Char.isDigit)
    | _ => none

/-- Reads a number after its sign. In hexadecimal a number has no sign and fits half a
word. -/
def readUnsigned (signed negative : Bool) (cs : List Char) : Reading Datum :=
  let hexadecimal? : Option (List Char) :=
    match cs with
    | '0' :: x :: d :: rest =>
      if (x = 'x' ∨ x = 'X') ∧ (hexVal? d).isSome then some (d :: rest) else none
    | _ => none
  match hexadecimal? with
  | some rest =>
    match Text.ofBase? 16 (rest.takeWhile fun c => (hexVal? c).isSome) with
    | some n =>
      if signed ∨ 4294967296 ≤ n then none
      else some (.number n, rest.dropWhile fun c => (hexVal? c).isSome)
    | none => none
  | none =>
    match afterWord? "Infinity".toList cs, afterWord? "NaN".toList cs with
    | some rest, _ => if signed && !negative then none else some (.float (.infinite negative), rest)
    | none, some rest => if signed && !negative then none else some (.float .nan, rest)
    | none, none =>
      (readNumeral cs).andThen fun ds rest => (decimal? negative ds).map (·, rest)

def readNumber : List Char → Reading Datum
  | '+' :: cs => readUnsigned true false cs
  | '-' :: cs => readUnsigned true true cs
  | cs => readUnsigned false false cs

/-! ## Values -/

mutual

/-- Reads a value, in at most so many steps. -/
def readValue : Nat → List Char → Reading Datum
  | 0, _ => none
  | _, [] => none
  | bound + 1, c :: cs =>
    if c = '[' then (readItems bound (gap cs)).map .list
    else if c = '\x7b' then (readFields bound (gap cs)).map .ofFields
    else if c = '"' ∨ c = '\x27' then
      (readString c (cs.length + 1) cs).map fun s => .text (String.ofList s)
    else
      match afterWord? "null".toList (c :: cs), afterWord? "true".toList (c :: cs),
        afterWord? "false".toList (c :: cs) with
      | some rest, _, _ => some (.nothing, rest)
      | _, some rest, _ => some (.bool true, rest)
      | _, _, some rest => some (.bool false, rest)
      | none, none, none => readNumber (c :: cs)

/-- Reads the items of a list up to its closing bracket. -/
def readItems : Nat → List Char → Reading (List Datum)
  | 0, _ => none
  | _, ']' :: rest => some ([], rest)
  | bound + 1, cs =>
    (readValue bound cs).andThen fun v rest =>
      match gap rest with
      | ',' :: rest => (readItems bound (gap rest)).map (v :: ·)
      | ']' :: rest => some ([v], rest)
      | _ => none

/-- Reads the fields of a table up to its closing brace. -/
def readFields : Nat → List Char → Reading (List (String × Datum))
  | 0, _ => none
  | _, '\x7d' :: rest => some ([], rest)
  | bound + 1, cs =>
    (readKey cs).andThen fun key rest =>
      match gap rest with
      | ':' :: rest =>
        (readValue bound (gap rest)).andThen fun v rest =>
          match gap rest with
          | ',' :: rest => (readFields bound (gap rest)).map ((key, v) :: ·)
          | '\x7d' :: rest => some ([(key, v)], rest)
          | _ => none
      | _ => none

end

/-- The value of a document. -/
def datum? (text : String) : Option Datum :=
  let cs := text.toList
  match readValue (2 * cs.length + 2) (gap cs) with
  | some (v, rest) => if (gap rest).isEmpty then some v else none
  | none => none

end ToolAgent.Json5
