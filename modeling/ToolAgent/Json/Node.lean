/-
Read JSON text as a tree that keeps the places of its parts. Text that breaks
off still has a tree, which ends in a `broken` leaf, so that whoever walks the
tree in order meets a fault exactly where a reader of the text would.

A part of the text can be read for its value or be passed over. Passing over is
laxer: it asks neither that a number be in range, nor that surrogates pair up,
nor that brackets nest less than 128 deep. A `void` leaf is a part that can only
be passed over.
-/
import ToolAgent.Json.Value

namespace ToolAgent.Json

/-- A place in a text: lines count from one, columns count bytes. -/
structure Place where
  line : Nat
  column : Nat
  deriving DecidableEq, Repr, Inhabited

namespace Place

def start : Place := ⟨1, 0⟩

/-- The place after a character. -/
def past (p : Place) (c : Char) : Place :=
  if c = '\n' then ⟨p.line + 1, 0⟩ else ⟨p.line, p.column + c.utf8Size⟩

/-- The place after the first byte of a character. -/
def into (p : Place) (c : Char) : Place :=
  if c = '\n' then ⟨p.line + 1, 0⟩ else ⟨p.line, p.column + 1⟩

/-- The place after some characters. -/
def pastAll (p : Place) (cs : List Char) : Place := cs.foldl past p

/-- The place after so many bytes. -/
def pastBytes (p : Place) : Nat → List Char → Place
  | 0, _ => p
  | _ + 1, [] => p
  | n + 1, c :: cs =>
    if c.utf8Size ≤ n + 1 then pastBytes (p.past c) (n + 1 - c.utf8Size) cs
    else ⟨p.line, p.column + (n + 1)⟩

end Place

/-- What is wrong with a text. -/
inductive Flaw where
  | endInValue
  | endInList
  | endInObject
  | endInString
  | expectedValue
  | expectedWord
  | expectedColon
  | expectedListEnd
  | expectedObjectEnd
  | keyNotString
  | trailingComma
  | trailingCharacters
  | invalidNumber
  | numberOutOfRange
  | invalidEscape
  | loneSurrogate
  | unpairedSurrogate
  | controlCharacter
  | tooDeep
  deriving DecidableEq, Repr

def Flaw.message : Flaw → String
  | .endInValue => "EOF while parsing a value"
  | .endInList => "EOF while parsing a list"
  | .endInObject => "EOF while parsing an object"
  | .endInString => "EOF while parsing a string"
  | .expectedValue => "expected value"
  | .expectedWord => "expected ident"
  | .expectedColon => "expected `:`"
  | .expectedListEnd => "expected `,` or `]`"
  | .expectedObjectEnd => "expected `,` or `\x7d`"
  | .keyNotString => "key must be a string"
  | .trailingComma => "trailing comma"
  | .trailingCharacters => "trailing characters"
  | .invalidNumber => "invalid number"
  | .numberOutOfRange => "number out of range"
  | .invalidEscape => "invalid escape"
  | .loneSurrogate => "lone leading surrogate in hex escape"
  | .unpairedSurrogate => "unexpected end of hex escape"
  | .controlCharacter => "control character (\\u0000-\\u001F) found while parsing a string"
  | .tooDeep => "recursion limit exceeded"

/-- Only the reading of a string meets these. -/
def Flaw.isInString : Flaw → Bool
  | .endInString | .invalidEscape | .loneSurrogate | .unpairedSurrogate | .controlCharacter => true
  | _ => false

/-- A flaw and where it was noticed. -/
structure Fault where
  flaw : Flaw
  place : Place
  deriving DecidableEq, Repr

/-- A message followed by its place. -/
def Place.after (p : Place) (message : String) : String :=
  message ++ " at line " ++ toString p.line ++ " column " ++ toString p.column

def Fault.message (f : Fault) : String := f.place.after f.flaw.message

/-- Where a part starts, where it stops, and where a reader stands that, after it,
has looked for the end of what encloses the part. -/
structure Span where
  start : Place
  stop : Place
  settled : Place
  deriving DecidableEq, Repr, Inhabited

/-- The span of a part that was not read from a text. -/
def Span.nowhere : Span := ⟨⟨0, 0⟩, ⟨0, 0⟩, ⟨0, 0⟩⟩

/-- A key as written. One that cannot be read for its value has a fault instead of
a name, one that cannot be passed over has a fault for that too. -/
structure Label where
  settled : Place
  name : Except Fault String
  laxFault? : Option Fault
  deriving Repr

inductive Node where
  | null (span : Span)
  | bool (span : Span) (b : Bool)
  | number (span : Span) (n : Number)
  | string (span : Span) (s : String)
  | array (span : Span) (level : Nat) (items : List Node)
  | object (span : Span) (level : Nat) (members : List (Label × Node))
  | void (span : Span) (fault : Fault)
  /-- The text goes wrong in what starts here, for its value and when passed over; or it
  goes wrong before a value could start, and then the fault is at this very place. -/
  | broken (start : Place) (strict lax : Fault)
  deriving Repr, Inhabited

namespace Node

def span : Node → Span
  | .null s | .bool s _ | .number s _ | .string s _ | .array s _ _ | .object s _ _ | .void s _ => s
  | .broken p _ _ => ⟨p, p, p⟩

def settle (p : Place) : Node → Node
  | .null s => .null { s with settled := p }
  | .bool s b => .bool { s with settled := p } b
  | .number s n => .number { s with settled := p } n
  | .string s t => .string { s with settled := p } t
  | .array s l items => .array { s with settled := p } l items
  | .object s l members => .object { s with settled := p } l members
  | .void s f => .void { s with settled := p } f
  | .broken start strict lax => .broken start strict lax

/-- Brackets may nest this deep, not deeper. -/
def deepest : Nat := 127

/-- Entering a bracket for its value, at a nesting level counted from one. -/
def enter (span : Span) (level : Nat) : Except Fault Unit :=
  if level ≤ deepest then .ok () else .error ⟨.tooDeep, span.start.into '['⟩

mutual

/-- The value of a part, or the first fault of a reader that reads it all. -/
def value : Node → Except Fault Json
  | .null _ => .ok .null
  | .bool _ b => .ok (.bool b)
  | .number _ n => .ok (.number n)
  | .string _ s => .ok (.string s)
  | .array span level items =>
    match enter span level with
    | .error f => .error f
    | .ok () =>
      match values items with
      | .error f => .error f
      | .ok vs => .ok (.array vs)
  | .object span level members =>
    match enter span level with
    | .error f => .error f
    | .ok () =>
      match fields members with
      | .error f => .error f
      | .ok fs => .ok (.object (sortFields fs))
  | .void _ f => .error f
  | .broken _ strict _ => .error strict

def values : List Node → Except Fault (List Json)
  | [] => .ok []
  | n :: ns =>
    match n.value with
    | .error f => .error f
    | .ok v =>
      match values ns with
      | .error f => .error f
      | .ok vs => .ok (v :: vs)

def fields : List (Label × Node) → Except Fault (List (String × Json))
  | [] => .ok []
  | (l, n) :: ms =>
    match l.name with
    | .error f => .error f
    | .ok k =>
      match n.value with
      | .error f => .error f
      | .ok v =>
        match fields ms with
        | .error f => .error f
        | .ok fs => .ok ((k, v) :: fs)

end

mutual

/-- The fault of a reader that passes over a part. -/
def laxFault? : Node → Option Fault
  | .array _ _ items => laxFaultIn? items
  | .object _ _ members => laxFaultAmong? members
  | .broken _ _ lax => some lax
  | _ => none

def laxFaultIn? : List Node → Option Fault
  | [] => none
  | n :: ns => n.laxFault?.or (laxFaultIn? ns)

def laxFaultAmong? : List (Label × Node) → Option Fault
  | [] => none
  | (l, n) :: ms => l.laxFault?.or (n.laxFault?.or (laxFaultAmong? ms))

end

mutual

/-- A value as a tree without places. -/
def ofJson : Json → Node
  | .null => .null .nowhere
  | .bool b => .bool .nowhere b
  | .number n => .number .nowhere n
  | .string s => .string .nowhere s
  | .array vs => .array .nowhere 0 (ofItems vs)
  | .object fs => .object .nowhere 0 (ofFields fs)

def ofItems : List Json → List Node
  | [] => []
  | v :: vs => ofJson v :: ofItems vs

def ofFields : List (String × Json) → List (Label × Node)
  | [] => []
  | (k, v) :: fs => (⟨⟨0, 0⟩, .ok k, none⟩, ofJson v) :: ofFields fs

end

end Node
end ToolAgent.Json
