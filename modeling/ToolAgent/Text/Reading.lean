/-
Readers of text: each gives what it read and the text after it, or nothing when
the text does not begin with such a part.
-/
namespace ToolAgent.Text

/-- What a reader gives. -/
abbrev Reading (α : Type) := Option (α × List Char)

namespace Reading

def map {α β : Type} (f : α → β) : Reading α → Reading β
  | none => none
  | some (a, rest) => some (f a, rest)

/-- Puts characters before those that were read. -/
def behind (cs : List Char) (r : Reading (List Char)) : Reading (List Char) := r.map (cs ++ ·)

/-- Goes on with the text after. -/
def andThen {α β : Type} (r : Reading α) (f : α → List Char → Reading β) : Reading β :=
  match r with
  | none => none
  | some (a, rest) => f a rest

/-- Keeps what fulfils a condition. -/
def check {α : Type} (p : α → Bool) : Reading α → Reading α
  | some (a, rest) => if p a then some (a, rest) else none
  | none => none

end Reading

/-- Reads a character. -/
def expect (c : Char) : List Char → Reading Unit
  | d :: rest => if d = c then some ((), rest) else none
  | [] => none

/-- The text after a word. -/
def afterWord? : List Char → List Char → Option (List Char)
  | [], rest => some rest
  | _, [] => none
  | w :: word, c :: cs => if w = c then afterWord? word cs else none

/-! ## Hexadecimal digits -/

def hexVal? (c : Char) : Option Nat :=
  if c.isDigit then some (c.toNat - 48)
  else if 'a' ≤ c ∧ c ≤ 'f' then some (c.toNat - 87)
  else if 'A' ≤ c ∧ c ≤ 'F' then some (c.toNat - 55)
  else none

/-- The number that digits of a base stand for. -/
def ofBase? (base : Nat) (cs : List Char) : Option Nat :=
  cs.foldl (fun n? c => do
    let n ← n?
    let d ← hexVal? c
    if d < base then some (base * n + d) else none) (some 0)

/-- The character of a code point. -/
def charOf? (n : Nat) : Option Char := if n.isValidChar then some (Char.ofNat n) else none

/-- The character of a code point in hexadecimal. -/
def codePoint? (cs : List Char) : Option Char := (ofBase? 16 cs).bind charOf?

/-- Reads the character of a code point in so many hexadecimal digits. -/
def readCodePoint (width : Nat) (cs : List Char) : Reading Char :=
  if cs.length < width then none else (codePoint? (cs.take width)).map (·, cs.drop width)

end ToolAgent.Text
