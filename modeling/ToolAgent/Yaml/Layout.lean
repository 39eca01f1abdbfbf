/-
The layout of a YAML document as far as it has been read: its tokens, the columns of
the blocks that are open, the brackets that are open, and the place where a token
would have to go to make a key of what has been read since.
-/
import ToolAgent.Yaml.Token

namespace ToolAgent.Yaml

/-- The start of what may turn out to be a key. -/
structure PendingKey where
  /-- How many tokens are before it. -/
  position : Nat
  start : Cursor
  /-- Whether a block goes on here only with a key. -/
  required : Bool

/-- What surrounds a block. -/
structure Surroundings where
  indent : Int
  /-- Whether a token tells the end of the block. -/
  isBlock : Bool

/-- An open bracket. -/
structure Bracket where
  isSequence : Bool
  /-- What may turn out to be a key outside. -/
  key : Option PendingKey

structure Layout where
  cursor : Cursor
  /-- The last one comes first. -/
  tokens : List Token
  /-- The column where the last token starts. -/
  tokenColumn : Nat
  /-- The column of the innermost block. -/
  indent : Int
  blocks : List Surroundings
  brackets : List Bracket
  key : Option PendingKey
  /-- Whether a key may start here. -/
  keyAllowed : Bool
  /-- Where a value may follow its colon without a blank. -/
  adjacent : Nat

namespace Layout

def start (cs : List Char) : Layout where
  cursor := .start cs
  tokens := []
  tokenColumn := 0
  indent := -1
  blocks := []
  brackets := []
  key := none
  keyAllowed := true
  adjacent := 0

def inFlow (l : Layout) : Bool := !l.brackets.isEmpty

/-- The number of brackets that may be open at once. -/
def bracketLimit : Nat := 255

/-! ## Tokens -/

/-- Adds the token that starts at a place. -/
def add (l : Layout) (start : Cursor) (t : Token) : Layout :=
  { l with tokens := t :: l.tokens, tokenColumn := start.column }

/-- Inserts a token behind so many others. -/
def insertAt (position : Nat) (t : Token) (tokens : List Token) : List Token :=
  let behind := tokens.length - position
  tokens.take behind ++ t :: tokens.drop behind

/-! ## Blocks -/

/-- Closes blocks that lie deeper than a column. -/
def unwind (column : Int) : Int → List Surroundings → List Token → Int × List Surroundings × List Token
  | indent, [], tokens => (indent, [], tokens)
  | indent, b :: blocks, tokens =>
    if column < indent then
      unwind column b.indent blocks (if b.isBlock then .blockEnd :: tokens else tokens)
    else (indent, b :: blocks, tokens)

/-- Closes blocks that lie deeper than a column. Within brackets columns do not count. -/
def closeBlocks (l : Layout) (column : Int) : Layout :=
  if l.inFlow then l
  else
    let (indent, blocks, tokens) := unwind column l.indent l.blocks l.tokens
    { l with indent, blocks, tokens }

/-- Drops what surrounds the innermost block, unless a token tells the block's end. -/
def dropLoose (l : Layout) : Layout :=
  match l.blocks with
  | b :: blocks => if b.isBlock then l else { l with indent := b.indent, blocks }
  | [] => l

/-- Opens a block in a column, with a token behind so many others, if it lies deeper
than the innermost one. -/
def openBlock (l : Layout) (column position : Nat) (t : Token) : Layout :=
  if l.inFlow then l
  else
    let l := if l.indent ≤ column then l.dropLoose else l
    if l.indent < column then
      { l with
        indent := column
        blocks := ⟨l.indent, true⟩ :: l.blocks
        tokens := insertAt position t l.tokens }
    else l

/-- What follows the mark of a block lies at least one column deeper. -/
def deepen (l : Layout) : Layout :=
  match l.blocks with
  | b :: _ =>
    if !l.inFlow && b.isBlock then
      { l with indent := l.indent + 1, blocks := ⟨l.indent, false⟩ :: l.blocks }
    else l
  | [] => l

/-- Ends what `deepen` has begun. -/
def undeepen (l : Layout) : Layout :=
  let loose := l.blocks.takeWhile (!·.isBlock)
  match loose.getLast? with
  | some b => { l with indent := b.indent, blocks := l.blocks.drop loose.length }
  | none => l

/-! ## Keys -/

/-- Notes that a key may start here. -/
def saveKey (l : Layout) : Layout :=
  if l.keyAllowed then
    let required := !l.inFlow && l.indent = l.cursor.column && l.blocks.head?.any (·.isBlock)
    { l with key := some ⟨l.tokens.length, l.cursor, required⟩ }
  else l

/-- Gives up the key that may have started, unless there must be one. -/
def dropKey? (l : Layout) : Option Layout :=
  if l.key.any (·.required) then none else some { l with key := none }

/-- A key outside of brackets is in one line and not too long. -/
def keyLimit : Nat := 1024

def isStale (l : Layout) (k : PendingKey) : Bool :=
  !l.inFlow && (k.start.line < l.cursor.line || k.start.index + keyLimit < l.cursor.index)

/-- Gives up a key that has become too long. -/
def dropStaleKey? (l : Layout) : Option Layout := if l.key.any l.isStale then l.dropKey? else some l

/-! ## Gaps -/

/-- Goes on to the next token, in at most so many steps. After a line end a key may
start. A tab indents no block. -/
def skipGap? : Nat → Layout → Option Layout
  | 0, l => some l
  | bound + 1, l =>
    match l.cursor.next with
    | none => some l
    | some c =>
      if c = '\t' && !l.blocks.isEmpty && l.cursor.fresh && l.cursor.column < l.indent then
        match l.cursor.toLineEnd? with
        | some cursor => skipGap? bound { l with cursor }
        | none => none
      else if isBlank c then skipGap? bound { l with cursor := l.cursor.indent 1 }
      else if isBreak c then
        skipGap? bound { l with
          cursor := l.cursor.lineBreak
          keyAllowed := l.keyAllowed || !l.inFlow }
      else if c = '#' then skipGap? bound { l with cursor := l.cursor.skipLine }
      else some l

def toToken? (l : Layout) : Option Layout := l.skipGap? (l.cursor.rest.length + 1)

end Layout
end ToolAgent.Yaml
