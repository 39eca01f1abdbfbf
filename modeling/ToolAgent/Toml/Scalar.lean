/-
Numbers, moments and truth values in a TOML document.
-/
import ToolAgent.Decimal.Word
import ToolAgent.Toml.Lexer
import ToolAgent.Toml.Value

namespace ToolAgent.Toml

open Text (Reading expect afterWord? hexVal? ofBase?)

/-! ## Numbers -/

/-- Digits, among which single underscores may stand. The underscores are dropped. -/
def readDigits (isDigit : Char → Bool) : List Char → Reading (List Char)
  | [] => none
  | c :: cs =>
    if !isDigit c then none
    else
      match cs with
      | '_' :: d :: rest =>
        if isDigit d then (readDigits isDigit (d :: rest)).behind [c] else some ([c], '_' :: d :: rest)
      | d :: rest =>
        if isDigit d then (readDigits isDigit (d :: rest)).behind [c] else some ([c], d :: rest)
      | [] => some ([c], [])

/-- The digits of a whole number: one zero, or digits that start with another one. -/
def readWhole : List Char → Reading (List Char)
  | '0' :: cs => some (['0'], cs)
  | cs => readDigits Char.isDigit cs

/-- Whole numbers fit a signed word. -/
def ofInt? (n : Int) : Option Toml :=
  if Word.Signed n then some (.integer n) else none

def readInteger (cs : List Char) : Reading Toml :=
  let inBase (base : Nat) (cs : List Char) : Reading Toml :=
    (readDigits (fun c => (hexVal? c).any (· < base)) cs).andThen fun ds rest =>
      (((ofBase? base ds).map Int.ofNat).bind ofInt?).map (·, rest)
  match cs with
  | '0' :: 'x' :: cs => inBase 16 cs
  | '0' :: 'o' :: cs => inBase 8 cs
  | '0' :: 'b' :: cs => inBase 2 cs
  | cs =>
    let (negative, cs) := Extended.splitSign cs
    (readWhole cs).andThen fun ds rest =>
      let n : Int := Decimal.ofDigits ds
      (ofInt? (if negative then -n else n)).map (·, rest)

/-- The digits after a point, or none. -/
def readFraction : List Char → Reading (List Char)
  | '.' :: cs => readDigits Char.isDigit cs
  | cs => some ([], cs)

/-- The number after an exponent mark, or zero. -/
def readExponent : List Char → Reading Int
  | c :: cs =>
    if Extended.isExponentMark c then
      let (negative, cs) := Extended.splitSign cs
      (readDigits Char.isDigit cs).map fun ds =>
        if negative then -(Decimal.ofDigits ds : Int) else Decimal.ofDigits ds
    else some (0, c :: cs)
  | [] => some (0, [])

/-- A number with a fraction or an exponent. One that is too large is refused, one
that is too small is minus infinity. -/
def readDecimal (negative : Bool) (cs : List Char) : Reading Toml :=
  (readWhole cs).andThen fun whole afterWhole =>
    (readFraction afterWhole).andThen fun fraction afterFraction =>
      (readExponent afterFraction).andThen fun exponent rest =>
        if rest = afterWhole then none
        else
          let x := Extended.ofDecimal negative (Decimal.ofDigits (whole ++ fraction))
            (exponent - fraction.length)
          if x = .infinite false then none else some (.float x, rest)

def readFloat (cs : List Char) : Reading Toml :=
  let (negative, cs) := Extended.splitSign cs
  match afterWord? ['i', 'n', 'f'] cs, afterWord? ['n', 'a', 'n'] cs with
  | some rest, _ => some (.float (.infinite negative), rest)
  | none, some rest => some (.float .nan, rest)
  | none, none => readDecimal negative cs

def readBool (cs : List Char) : Reading Toml :=
  match afterWord? ['t', 'r', 'u', 'e'] cs, afterWord? ['f', 'a', 'l', 's', 'e'] cs with
  | some rest, _ => some (.bool true, rest)
  | none, some rest => some (.bool false, rest)
  | none, none => none

/-! ## Moments -/

/-- A number of so many digits. -/
def readFixed (width : Nat) (cs : List Char) : Reading Nat :=
  let ds := cs.take width
  if ds.length = width ∧ ds.all Char.isDigit then some (Decimal.ofDigits ds, cs.drop width) else none

def daysIn (year month : Nat) : Nat :=
  if month = 2 then
    if year % 4 = 0 ∧ (year % 100 ≠ 0 ∨ year % 400 = 0) then 29 else 28
  else if month = 4 ∨ month = 6 ∨ month = 9 ∨ month = 11 then 30
  else 31

def readDate (cs : List Char) : Option (Date × List Char) := do
  let (year, cs) ← readFixed 4 cs
  let (_, cs) ← expect '-' cs
  let (month, cs) ← (readFixed 2 cs).check fun m => 1 ≤ m && m ≤ 12
  let (_, cs) ← expect '-' cs
  let (day, cs) ← (readFixed 2 cs).check fun d => 1 ≤ d && d ≤ daysIn year month
  return (⟨year, month, day⟩, cs)

/-- The nanoseconds of a fraction; digits beyond the ninth are dropped. -/
def readNanoseconds (cs : List Char) : Reading Nat :=
  match cs with
  | '.' :: rest =>
    match rest.takeWhile Char.isDigit with
    | [] => some (0, cs)
    | ds =>
      let kept := ds.take 9
      some (Decimal.ofDigits kept * Nat.pow 10 (9 - kept.length), rest.dropWhile Char.isDigit)
  | cs => some (0, cs)

/-- Reads a time with an hour up to the one given. -/
def readTimeUpTo (lastHour : Nat) (cs : List Char) : Option (TimeOfDay × List Char) := do
  let (hour, cs) ← (readFixed 2 cs).check (· ≤ lastHour)
  let (_, cs) ← expect ':' cs
  let (minute, cs) ← (readFixed 2 cs).check (· ≤ 59)
  let (_, cs) ← expect ':' cs
  let (second, cs) ← (readFixed 2 cs).check (· ≤ 60)
  let (nanosecond, cs) ← readNanoseconds cs
  return (⟨hour, minute, second, nanosecond⟩, cs)

def readTime (cs : List Char) : Reading TimeOfDay := readTimeUpTo 23 cs

/-- Hours and minutes, in minutes. -/
def readHoursMinutes (cs : List Char) : Option (Nat × List Char) := do
  let (hour, cs) ← (readFixed 2 cs).check (· ≤ 23)
  let (_, cs) ← expect ':' cs
  let (minute, cs) ← (readFixed 2 cs).check (· ≤ 59)
  return (60 * hour + minute, cs)

/-- An offset, or none. -/
def readOffset : List Char → Reading (Option Offset)
  | 'Z' :: cs | 'z' :: cs => some (some .universal, cs)
  | '+' :: cs => Reading.map (fun (n : Nat) => some (.minutes n)) (readHoursMinutes cs)
  | '-' :: cs => Reading.map (fun (n : Nat) => some (.minutes (-n))) (readHoursMinutes cs)
  | cs => some (none, cs)

/-- Reads what may follow a date: a letter or a blank, then a time. -/
def readRestOfMoment (d : Date) (cs : List Char) : Reading Moment :=
  match cs with
  | c :: rest =>
    if c = 'T' ∨ c = 't' ∨ c = ' ' then
      match readTime rest with
      | none => some (.date d, cs)
      | some (t, rest) => Reading.map (.both d t) (readOffset rest)
    else some (.date d, cs)
  | [] => some (.date d, cs)

def readMoment (cs : List Char) : Reading Moment :=
  match readDate cs with
  | some (d, rest) => readRestOfMoment d rest
  | none => Reading.map .time (readTime cs)

/-! ## Moments as texts of their own -/

/-- What is left of a moment after date and time: an offset of a day at most, or none. -/
def wholeOffset? (cs : List Char) : Option (Option Offset) :=
  let signed (negative : Bool) (cs : List Char) : Option (Option Offset) := do
    let (hour, cs) ← readFixed 2 cs
    let (_, cs) ← expect ':' cs
    let (minute, cs) ← readFixed 2 cs
    let n := 60 * hour + minute
    if cs = [] ∧ n ≤ 1440 then return some (.minutes (if negative then -n else n)) else none
  match cs with
  | [] => some none
  | ['Z'] | ['z'] => some (some .universal)
  | '+' :: cs => signed false cs
  | '-' :: cs => signed true cs
  | _ => none

/-- The moment that a text by itself stands for. Here an hour may be the twenty-fourth,
minutes of an offset may be more than an hour has, and a blank after a date must be
followed by a time. -/
def Moment.ofText? (s : String) : Option Moment :=
  let cs := s.toList
  if cs[2]? = some ':' then
    match readTimeUpTo 24 cs with
    | some (t, []) => some (.time t)
    | _ => none
  else do
    let (d, rest) ← readDate cs
    match rest with
    | [] => return .date d
    | c :: rest =>
      if c = 'T' ∨ c = 't' ∨ c = ' ' then
        let (t, rest) ← readTimeUpTo 24 rest
        return .both d t (← wholeOffset? rest)
      else none

/-- Reads a number or a moment. -/
def readNumber (cs : List Char) : Reading Toml :=
  ((readMoment cs).map .moment).or ((readFloat cs).or (readInteger cs))

end ToolAgent.Toml
