/-
Scalars that have indented lines of a YAML document to themselves.
-/
import ToolAgent.Yaml.Scalar

namespace ToolAgent.Yaml

/-- What becomes of the line ends after the last line: one stays, all stay, or none. -/
inductive Chomping where
  | clip
  | keep
  | strip
  deriving DecidableEq, Repr

/-! ## Headers -/

structure BlockHeader where
  chomping : Chomping
  /-- How much deeper than its surroundings the text is indented, if that is told. -/
  step : Option Nat

def readChomping : List Char → Option Chomping × List Char
  | '+' :: cs => (some .keep, cs)
  | '-' :: cs => (some .strip, cs)
  | cs => (none, cs)

/-- Reads a digit but zero, or nothing. -/
def readStep? : List Char → Option (Option Nat × List Char)
  | '0' :: _ => none
  | c :: cs => if c.isDigit then some (some (c.toNat - 48), cs) else some (none, c :: cs)
  | [] => some (none, [])

/-- Reads a header, with its two parts in any order. -/
def readBlockHeader (cs : List Char) : Option (BlockHeader × List Char) := do
  let (before, cs) := readChomping cs
  let (step, cs) ← readStep? cs
  let (after, cs) := if before.isNone && step.isSome then readChomping cs else (none, cs)
  return (⟨(before.or after).getD .clip, step⟩, cs)

/-! ## Lines -/

/-- Passes over blanks up to a column and over empty lines. Gives the number of these. -/
def skipEmptyLines (column : Nat) : Nat → Cursor → Nat × Cursor
  | 0, c => (0, c)
  | bound + 1, c =>
    let c := c.indent ((c.rest.take (column - c.column)).takeWhile (· = ' ')).length
    if c.next.any isBreak then
      let (n, c) := skipEmptyLines column bound c.lineBreak
      (n + 1, c)
    else (0, c)

/-- Passes over empty lines and the blanks after them. Gives the number of lines and the
last column that blanks reach. -/
def skipToText (deepest : Nat) : Nat → Cursor → (Nat × Nat) × Cursor
  | 0, c => ((0, deepest), c)
  | bound + 1, c =>
    let c := c.indent (c.rest.takeWhile (· = ' ')).length
    let deepest := max deepest c.column
    if c.next.any isBreak then
      let ((n, deepest), c) := skipToText deepest bound c.lineBreak
      ((n + 1, deepest), c)
    else ((0, deepest), c)

/-- Line ends that have been passed over: that of a line with text, and those of empty
lines. -/
structure Breaks where
  ended : Bool
  empty : Nat

def Breaks.text (b : Breaks) : List Char :=
  (if b.ended then ['\n'] else []) ++ List.replicate b.empty '\n'

/-- The same where lines are folded, between lines that start with no blank. -/
def Breaks.folded (b : Breaks) : List Char :=
  if b.ended then (if b.empty = 0 then [' '] else List.replicate b.empty '\n') else b.text

/-- Reads the lines from a column on. Gives their text and the line ends that are left. -/
def readBlockLines (folds : Bool) (column : Nat) :
    Nat → Bool → Breaks → Cursor → (List Char × Breaks) × Cursor
  | 0, _, b, c => (([], b), c)
  | bound + 1, afterBlank, b, c =>
    if c.column ≠ column || c.atEnd then (([], b), c)
    else
      let blank := c.next.any isBlank
      let line := c.rest.takeWhile (!isBreak ·)
      let text := (if folds && !afterBlank && !blank then b.folded else b.text) ++ line
      let c := c.step line.length
      if c.atEnd then ((text, ⟨false, 0⟩), c)
      else
        let (n, c) := skipEmptyLines column c.rest.length c.lineBreak
        let ((more, b), c) := readBlockLines folds column bound blank ⟨true, n⟩ c
        ((text ++ more, b), c)

/-- The line ends at the end of a text whose lines start in a column. -/
def chomped (chomping : Chomping) (column : Nat) (b : Breaks) (c : Cursor) : List Char :=
  let ended := (if b.ended then ['\n'] else []) ++ (if c.atEnd && max column 1 ≤ c.column then ['\n'] else [])
  match chomping with
  | .strip => []
  | .clip => ended
  | .keep => ended ++ List.replicate b.empty '\n'

/-- The text of a scalar that has no line with text before the document ends. -/
def withoutLines (chomping : Chomping) (header empty : Nat) : List Char :=
  match chomping with
  | .strip => []
  | .clip => List.replicate header '\n'
  | .keep => List.replicate (if empty = 0 then header else empty) '\n'

/-- Reads a scalar after its mark. Its surroundings are indented as given. -/
def readBlock (folds : Bool) (indent : Int) (c : Cursor) :
    Option (List Char × Cursor) := do
  let (header, rest) ← readBlockHeader c.rest
  let ended ← (c.stepTo rest).toLineEnd?
  let c := ended.lineBreak
  if c.next = some '\t' then none
  else
    let ((empty, column), c) :=
      match header.step with
      | some n =>
        let column := (max indent 0).toNat + n
        let (empty, c) := skipEmptyLines column (c.rest.length + 1) c
        ((empty, column), c)
      | none =>
        let ((empty, deepest), c) := skipToText 0 (c.rest.length + 1) c
        ((empty, max deepest (indent + 1).toNat), c)
    if c.atEnd then
      return (withoutLines header.chomping (if c.line = ended.line then 0 else 1) empty, c)
    else if c.column < column ∧ indent < c.column then none
    else
      let ((text, b), c) := readBlockLines folds column (c.rest.length + 1) false ⟨false, empty⟩ c
      return (text ++ chomped header.chomping column b c, c)

end ToolAgent.Yaml
