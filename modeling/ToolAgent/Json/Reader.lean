/-
Reading JSON text. `Document.read` turns any text into a tree (`Json.Node`);
`Json.parse` asks for its value as free-form data.

The readers walk the characters that are left with a `Cursor`. Arrays and
objects recurse on a bound that counts down once per value and once per comma,
so twice the length of the text is enough of it.
-/
import ToolAgent.Json.Numeral
import ToolAgent.Text.Reading

namespace ToolAgent.Json

structure Cursor where
  rest : List Char
  place : Place

namespace Cursor

def isBlank (c : Char) : Bool := c = ' ' || c = '\n' || c = '\t' || c = '\r'

def skipFrom (p : Place) : List Char → Cursor
  | [] => ⟨[], p⟩
  | c :: cs => if isBlank c then skipFrom (p.past c) cs else ⟨c :: cs, p⟩

def skipBlanks (c : Cursor) : Cursor := skipFrom c.place c.rest

/-- Passes over so many characters. -/
def advance (c : Cursor) (n : Nat) : Cursor := ⟨c.rest.drop n, c.place.pastAll (c.rest.take n)⟩

/-- The leading digits. -/
def digits (c : Cursor) : List Char := c.rest.takeWhile Char.isDigit

end Cursor

/-- What a token turned out to be. -/
inductive Lexed (α : Type) where
  | good (value : α) (next : Cursor)
  /-- Well formed but without a value. -/
  | void (fault : Fault) (next : Cursor)
  | bad (strict lax : Fault)

def Lexed.flawed {α : Type} (f : Fault) : Lexed α := .bad f f

/-! ## Words and numbers -/

/-- The letters of a word after its first. -/
def readWord (p : Place) : List Char → List Char → Lexed Unit
  | [], cs => .good () ⟨cs, p⟩
  | _ :: _, [] => .flawed ⟨.endInValue, p⟩
  | w :: ws, c :: cs =>
    if c = w then readWord (p.past c) ws cs else .flawed ⟨.expectedWord, p.into c⟩

/-- A digit was due. The end of the text is no invalid number for a reader of values. -/
def noDigit {α : Type} (c : Cursor) : Lexed α :=
  match c.rest with
  | [] => .bad ⟨.endInValue, c.place⟩ ⟨.invalidNumber, c.place⟩
  | x :: _ => .flawed ⟨.invalidNumber, c.place.into x⟩

def readNumeral (n : Numeral) (expStart : Place) (c : Cursor) : Lexed Number :=
  match n.value? with
  | some v => .good v c
  | none =>
    let at_ := match n.exponent with
      | some (_, ds) =>
        match Numeral.excess? 0 0 ds with
        | some count => expStart.pastAll (ds.take count)
        | none => c.place
      | none => c.place
    .void ⟨.numberOutOfRange, at_⟩ c

def readExponent (n : Numeral) (c : Cursor) : Lexed Number :=
  match c.rest with
  | e :: _ =>
    if e = 'e' ∨ e = 'E' then
      let c := c.advance 1
      let (below, c) := match c.rest with
        | '-' :: _ => (true, c.advance 1)
        | '+' :: _ => (false, c.advance 1)
        | _ => (false, c)
      match c.digits with
      | [] => noDigit c
      | d :: ds =>
        readNumeral { n with exponent := some (below, d :: ds) } c.place (c.advance (ds.length + 1))
    else readNumeral n c.place c
  | [] => readNumeral n c.place c

def readFraction (n : Numeral) (c : Cursor) : Lexed Number :=
  match c.rest with
  | '.' :: _ =>
    let c := c.advance 1
    match c.digits with
    | [] => noDigit c
    | d :: ds => readExponent { n with fraction := d :: ds } (c.advance (ds.length + 1))
  | _ => readExponent n c

/-- A number from its sign or first digit on. A zero is no first digit of others. -/
def readNumber (c : Cursor) : Lexed Number :=
  let (negative, c) := match c.rest with
    | '-' :: _ => (true, c.advance 1)
    | _ => (false, c)
  match c.digits with
  | [] => noDigit c
  | d :: ds =>
    if d = '0' ∧ ds ≠ [] then .flawed ⟨.invalidNumber, ((c.place.past '0').past '0')⟩
    else readFraction ⟨negative, d :: ds, [], none⟩ (c.advance (ds.length + 1))

/-! ## Strings -/

/-- The number that four hexadecimal digits stand for. -/
def hex4? (a b c d : Char) : Option Nat :=
  Text.ofBase? 16 [a, b, c, d]

/-- The character that a one-letter escape stands for. -/
def unescape? (c : Char) : Option Char :=
  if c = '"' ∨ c = '\\' ∨ c = '/' then some c
  else if c = 'b' then some '\x08'
  else if c = 'f' then some '\x0c'
  else if c = 'n' then some '\n'
  else if c = 'r' then some '\r'
  else if c = 't' then some '\t'
  else none

def isLeadingSurrogate (n : Nat) : Bool := 0xD800 ≤ n && n ≤ 0xDBFF

def isTrailingSurrogate (n : Nat) : Bool := 0xDC00 ≤ n && n ≤ 0xDFFF

/-- Four hexadecimal digits were due and are not there. The bytes of the text are counted. -/
def noHex (p : Place) (cs : List Char) : Fault :=
  if cs.foldl (fun n c => n + c.utf8Size) 0 < 4 then ⟨.endInString, p.pastAll cs⟩
  else ⟨.invalidEscape, p.pastBytes 4 cs⟩

/-- The character that a leading surrogate makes with an escape of a trailing one. -/
def paired? (n : Nat) : List Char → Option Char
  | '\\' :: 'u' :: x :: y :: z :: w :: _ =>
    match hex4? x y z w with
    | some m =>
      if isTrailingSurrogate m then
        some (Char.ofNat ((n - 0xD800) * 1024 + (m - 0xDC00) + 0x10000))
      else none
    | none => none
  | _ => none

/-- A leading surrogate stands at the end of what was read; what is wrong with what follows. -/
def unpaired (p : Place) : List Char → Fault
  | [] => ⟨.endInString, p⟩
  | c :: cs =>
    if c ≠ '\\' then ⟨.unpairedSurrogate, p.into c⟩
    else
      match cs with
      | [] => ⟨.endInString, p.past c⟩
      | u :: cs =>
        if u ≠ 'u' then ⟨.unpairedSurrogate, (p.past c).into u⟩
        else
          let p := (p.past c).past u
          match cs with
          | x :: y :: z :: w :: _ =>
            if (hex4? x y z w).isSome then ⟨.loneSurrogate, p.pastAll [x, y, z, w]⟩ else noHex p cs
          | _ => noHex p cs

/-- The characters of a string, its opening quote already read, in reverse. The
first thing that leaves it without a value is remembered in `bad`. Who passes over
a string stops before a control character, who reads it stops after one. -/
def readText (p : Place) (acc : List Char) (bad : Option Fault) : List Char → Lexed (List Char)
  | [] => .bad (bad.getD ⟨.endInString, p⟩) ⟨.endInString, p⟩
  | c :: cs =>
    if c = '"' then
      match bad with
      | none => .good acc ⟨cs, p.past c⟩
      | some f => .void f ⟨cs, p.past c⟩
    else if c = '\\' then
      match cs with
      | [] => .bad (bad.getD ⟨.endInString, p.past c⟩) ⟨.endInString, p.past c⟩
      | e :: cs =>
        match unescape? e with
        | some x => readText ((p.past c).past e) (x :: acc) bad cs
        | none =>
          if e = 'u' then
            let p := (p.past c).past e
            match cs with
            | x :: y :: z :: w :: cs =>
              match hex4? x y z w with
              | none =>
                let f := noHex p (x :: y :: z :: w :: cs)
                .bad (bad.getD f) f
              | some n =>
                let p := p.pastAll [x, y, z, w]
                if isTrailingSurrogate n then readText p acc (bad.or (some ⟨.loneSurrogate, p⟩)) cs
                else if isLeadingSurrogate n then
                  match paired? n cs with
                  | some joined => readText (p.pastAll (cs.take 6)) (joined :: acc) bad (cs.drop 6)
                  | none => readText p acc (bad.or (some (unpaired p cs))) cs
                else readText p (Char.ofNat n :: acc) bad cs
            | cs =>
              let f := noHex p cs
              .bad (bad.getD f) f
          else .bad (bad.getD ⟨.invalidEscape, (p.past c).into e⟩) ⟨.invalidEscape, (p.past c).into e⟩
    else if c.toNat < 32 then .bad (bad.getD ⟨.controlCharacter, p.past c⟩) ⟨.controlCharacter, p⟩
    else readText (p.past c) (c :: acc) bad cs
termination_by cs => cs.length
decreasing_by all_goals simp; try omega

/-! ## Values -/

/-- Something read, and where to go on; after a broken leaf there is no going on. -/
structure Found (α : Type) where
  value : α
  next : Cursor
  intact : Bool

def foundBroken (strict lax : Fault) (c : Cursor) : Found Node := ⟨.broken c.place strict lax, c, false⟩

/-- A token as a leaf of the tree. -/
def Lexed.leaf {α : Type} (start : Place) (c : Cursor) (make : Span → α → Node) :
    Lexed α → Found Node
  | .good v next => ⟨make ⟨start, next.place, next.place⟩ v, next, true⟩
  | .void f next => ⟨.void ⟨start, next.place, next.place⟩ f, next, true⟩
  | .bad strict lax => foundBroken strict lax c

/-- Where a reader stands that looks for the end of an array after an item. -/
def settledInArray (c : Cursor) : Place :=
  let c := c.skipBlanks
  match c.rest with
  | ']' :: _ => c.place.past ']'
  | ',' :: cs => (Cursor.skipFrom (c.place.past ',') cs).place
  | _ => c.place

/-- Where a reader stands that looks for the end of an object after a part of it. -/
def settledInObject (c : Cursor) : Place :=
  let c := c.skipBlanks
  match c.rest with
  | '\x7d' :: _ => c.place.past '\x7d'
  | _ => c.place

/-- A key up to its colon. -/
def readLabel (c : Cursor) : Lexed Label :=
  let close (name : Except Fault String) (next : Cursor) : Lexed Label :=
    .good ⟨settledInObject next, name, none⟩ next
  match readText (c.place.past '"') [] none (c.rest.drop 1) with
  | .good cs next => close (.ok (String.ofList cs.reverse)) next
  | .void f next => close (.error f) next
  | .bad strict lax => .bad strict lax

mutual

/-- A value at a nesting level, the brackets around it being counted. -/
def readValue : Nat → Nat → Cursor → Found Node
  | 0, _, c => foundBroken ⟨.tooDeep, c.place⟩ ⟨.tooDeep, c.place⟩ c
  | bound + 1, level, c =>
    let c := c.skipBlanks
    match c.rest with
    | [] => foundBroken ⟨.endInValue, c.place⟩ ⟨.endInValue, c.place⟩ c
    | x :: cs =>
      if x = 'n' then (readWord (c.place.past x) ['u', 'l', 'l'] cs).leaf c.place c fun s _ => .null s
      else if x = 't' then
        (readWord (c.place.past x) ['r', 'u', 'e'] cs).leaf c.place c fun s _ => .bool s true
      else if x = 'f' then
        (readWord (c.place.past x) ['a', 'l', 's', 'e'] cs).leaf c.place c fun s _ => .bool s false
      else if x = '-' ∨ x.isDigit then (readNumber c).leaf c.place c .number
      else if x = '"' then
        (readText (c.place.past x) [] none cs).leaf c.place c
          fun s acc => .string s (String.ofList acc.reverse)
      else if x = '[' then
        let r := readItems bound (level + 1) true ⟨cs, c.place.past x⟩
        ⟨.array ⟨c.place, r.next.place, r.next.place⟩ (level + 1) r.value, r.next, r.intact⟩
      else if x = '\x7b' then
        let r := readMembers bound (level + 1) true ⟨cs, c.place.past x⟩
        ⟨.object ⟨c.place, r.next.place, r.next.place⟩ (level + 1) r.value, r.next, r.intact⟩
      else
        let f : Fault := ⟨.expectedValue, c.place.into x⟩
        foundBroken f f c

/-- The rest of an array, before its first item or after another. -/
def readItems : Nat → Nat → Bool → Cursor → Found (List Node)
  | 0, _, _, c => ⟨[.broken c.place ⟨.tooDeep, c.place⟩ ⟨.tooDeep, c.place⟩], c, false⟩
  | bound + 1, level, first, c =>
    let c := c.skipBlanks
    let stop (strict lax : Flaw) (p : Place) : Found (List Node) :=
      ⟨[.broken p ⟨strict, p⟩ ⟨lax, p⟩], c, false⟩
    let item (c : Cursor) : Found (List Node) :=
      let v := readValue bound level c
      if v.intact then
        let r := readItems bound level false v.next
        ⟨v.value.settle (settledInArray v.next) :: r.value, r.next, r.intact⟩
      else ⟨[v.value], v.next, false⟩
    match c.rest with
    | [] => stop .endInList .endInList c.place
    | x :: cs =>
      if x = ']' then ⟨[], ⟨cs, c.place.past x⟩, true⟩
      else if first then item c
      else if x = ',' then
        let c := Cursor.skipFrom (c.place.past x) cs
        match c.rest with
        | [] => stop .endInValue .endInValue c.place
        | y :: _ =>
          if y = ']' then stop .trailingComma .expectedValue (c.place.into y) else item c
      else stop .expectedListEnd .expectedListEnd (c.place.into x)

/-- The rest of an object, before its first member or after another. -/
def readMembers : Nat → Nat → Bool → Cursor → Found (List (Label × Node))
  | 0, _, _, c =>
    let f : Fault := ⟨.tooDeep, c.place⟩
    ⟨[(⟨c.place, .error f, some f⟩, .broken c.place f f)], c, false⟩
  | bound + 1, level, first, c =>
    let c := c.skipBlanks
    let stopAt (strict lax : Fault) (c : Cursor) : Found (List (Label × Node)) :=
      ⟨[(⟨c.place, .error strict, some lax⟩, .broken c.place strict lax)], c, false⟩
    let member (c : Cursor) : Found (List (Label × Node)) :=
      match readLabel c with
      | .bad strict lax => stopAt strict lax c
      | .void f _ => stopAt f f c
      | .good label next =>
        let c := next.skipBlanks
        match c.rest with
        | [] =>
          let f : Fault := ⟨.endInObject, c.place⟩
          ⟨[(label, .broken c.place f f)], c, false⟩
        | x :: cs =>
          if x = ':' then
            let v := readValue bound level ⟨cs, c.place.past x⟩
            if v.intact then
              let r := readMembers bound level false v.next
              ⟨(label, v.value.settle (settledInObject v.next)) :: r.value, r.next, r.intact⟩
            else ⟨[(label, v.value)], v.next, false⟩
          else
            let f : Fault := ⟨.expectedColon, c.place.into x⟩
            ⟨[(label, .broken f.place f f)], c, false⟩
    match c.rest with
    | [] => stopAt ⟨.endInObject, c.place⟩ ⟨.endInObject, c.place⟩ c
    | x :: cs =>
      let p := c.place.into x
      if x = '\x7d' then ⟨[], ⟨cs, c.place.past x⟩, true⟩
      else if first then
        if x = '"' then member c else stopAt ⟨.keyNotString, p⟩ ⟨.keyNotString, p⟩ c
      else if x = ',' then
        let c := Cursor.skipFrom (c.place.past x) cs
        match c.rest with
        | [] => stopAt ⟨.endInValue, c.place⟩ ⟨.endInObject, c.place⟩ c
        | y :: _ =>
          let p := c.place.into y
          if y = '"' then member c
          else if y = '\x7d' then stopAt ⟨.trailingComma, p⟩ ⟨.keyNotString, p⟩ c
          else stopAt ⟨.keyNotString, p⟩ ⟨.keyNotString, p⟩ c
      else stopAt ⟨.expectedObjectEnd, p⟩ ⟨.expectedObjectEnd, p⟩ c

end

/-- A text: its value, and the fault of what follows it. -/
structure Document where
  root : Node
  trailing : Option Fault

def Document.readChars (cs : List Char) : Document :=
  let v := readValue (2 * cs.length + 2) 0 ⟨cs, .start⟩
  let c := v.next.skipBlanks
  match c.rest with
  | [] => ⟨v.value, none⟩
  | x :: _ => ⟨v.value, some ⟨.trailingCharacters, c.place.into x⟩⟩

def Document.read (text : String) : Document := readChars text.toList

/-- The free-form value of a text. -/
def parse (text : String) : Except Fault Json :=
  let d := Document.read text
  match d.root.value with
  | .error f => .error f
  | .ok v =>
    match d.trailing with
    | some f => .error f
    | none => .ok v

end ToolAgent.Json
