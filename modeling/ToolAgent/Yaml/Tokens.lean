/-
The tokens of a YAML document.

A colon makes a key of what has been read since the last place where a key could start:
tokens are then inserted before that. Blocks open where a key, or the mark of an item,
lies deeper than the block around, and they close where the text returns.
-/
import ToolAgent.Text.Alphanumeric
import ToolAgent.Yaml.Block
import ToolAgent.Yaml.Layout

namespace ToolAgent.Yaml

namespace Layout

/-! ## Boundaries of documents -/

/-- Closes all blocks; no key may go on or start. -/
def closeAll? (l : Layout) : Option Layout :=
  (l.closeBlocks (-1)).dropKey?.map fun l => { l with keyAllowed := false }

def scanBoundary? (l : Layout) : Option Layout := do
  let start := l.cursor
  let l ← l.closeAll?
  let after := start.step 3
  if start.atMark '-' then return { l with cursor := after }.add start .documentStart
  else
    let cursor ← after.toLineEnd?
    return { l with cursor }.add start .documentEnd

def scanDirective? (l : Layout) : Option Layout := do
  let start := l.cursor
  let l ← l.closeAll?
  let (t, rest) ← readDirective (start.rest.drop 1)
  let cursor ← (start.stepTo rest).toLineEnd?
  return { l with cursor := cursor.lineBreak }.add start t

/-! ## Collections -/

/-- Passes over a mark of one character, and blanks and a comment after it. -/
def passMark? (l : Layout) : Option Layout :=
  (l.cursor.step 1).skipBlanks?.map fun (_, cursor) => { l with cursor }

def scanOpening? (l : Layout) (isSequence : Bool) : Option Layout :=
  let start := l.cursor
  let l := l.saveKey.deepen
  if l.brackets.length < bracketLimit then
    let l := { l with brackets := ⟨isSequence, l.key⟩ :: l.brackets, key := none, keyAllowed := true }
    l.passMark?.map (·.add start (if isSequence then .flowSequence else .flowMapping))
  else none

def scanClosing? (l : Layout) (t : Token) : Option Layout := do
  let start := l.cursor
  let l ← l.dropKey?
  let l := match l.brackets with
    | b :: brackets => { l with brackets, key := b.key }
    | [] => l
  let l ← { l with keyAllowed := false }.passMark?
  let l := if l.inFlow then { l with adjacent := l.cursor.index } else l
  return l.add start t

def scanComma? (l : Layout) : Option Layout := do
  let start := l.cursor
  let l ← l.dropKey?
  let l ← { l with keyAllowed := true }.passMark?
  return l.add start .comma

/-- An item of a block. Its mark may not come in the column of properties that have been
put before a whole block. -/
def scanItem? (l : Layout) : Option Layout := do
  let start := l.cursor
  let afterProperty := l.tokens.head?.any (·.isProperty) && l.tokenColumn = 0
  if l.inFlow || !l.keyAllowed || (afterProperty && start.column = 0 && -1 < l.indent) then none
  else
    let l := l.openBlock start.column l.tokens.length .blockSequence
    let (blanks, cursor) ← (start.step 1).skipBlanks?
    if blanks.contains '\t' && cursor.next = some '-' && endsWord cursor.rest[1]? then none
    else
      let l := { l with cursor }
      let l := if cursor.next.any fun c => isBreak c || isFlow c then l.deepen else l
      let l ← l.dropKey?
      return { l with keyAllowed := true }.add cursor .item

/-! ## Keys and values -/

/-- Passes over blanks, line ends and comments, but no tab. Also tells whether there was
anything but a comment. -/
def skipSpaces (found : Bool) : Nat → Cursor → Bool × Cursor
  | 0, c => (found, c)
  | bound + 1, c =>
    match c.next with
    | none => (found, c)
    | some x =>
      if x = ' ' then skipSpaces true bound (c.indent 1)
      else if isBreak x then skipSpaces true bound c.lineBreak
      else if x = '#' then skipSpaces found bound c.skipLine
      else (found, c)

/-- A key that is marked as such. -/
def scanKey? (l : Layout) : Option Layout := do
  let start := l.cursor
  if !l.inFlow && !l.keyAllowed then none
  else
    let l := l.openBlock start.column l.tokens.length .blockMapping
    let l ← l.dropKey?
    let (found, cursor) := skipSpaces false (start.rest.length + 1) (start.step 1)
    if !found || cursor.next = some '\t' then none
    else return { l with cursor, keyAllowed := !l.inFlow }.add start .key

/-- Passes over a colon, and over what follows if it begins with a tab. A tab by itself
sets no word off. -/
def passColon? (c : Cursor) : Option Cursor :=
  let c := c.step 1
  if c.next ≠ some '\t' then some c
  else
    match c.skipBlanks? with
    | none => none
    | some (blanks, c) =>
      let isWord := c.next.any fun x => x = '-' || Text.isAlphanumeric x
      if isWord && !blanks.contains ' ' then none else some c

/-- A value. What has been read since a key could start is its key; in a list in brackets
that lies in one line. -/
def scanValue? (l : Layout) : Option Layout := do
  let start := l.cursor
  let l := { l with cursor := ← passColon? start }
  match l.key with
  | some k =>
    if l.brackets.head?.any (·.isSequence) && k.start.line < start.line then none
    else
      let l := { l with tokens := insertAt k.position .key l.tokens }
      let l := (l.openBlock k.start.column k.position .blockMapping).deepen
      return { l with key := none, keyAllowed := false }.add start .value
  | none =>
    if l.inFlow then return { l with keyAllowed := false }.add start .value
    else if !l.keyAllowed then none
    else
      let l := (l.openBlock start.column l.tokens.length .blockMapping).deepen
      return { l with keyAllowed := true }.add start .value

/-! ## Nodes -/

/-- Starts a node, after which no key may start. -/
def startNode (l : Layout) : Layout := { l.saveKey with keyAllowed := false }

def isAnchorChar (c : Char) : Bool := !isBlank c && !isBreak c && !isFlow c && c ≠ '\ufeff'

/-- A name after a mark. -/
def scanName? (l : Layout) (token : String → Token) : Option Layout :=
  let start := l.cursor
  match (start.rest.drop 1).takeWhile isAnchorChar with
  | [] => none
  | name =>
    some ({ l.startNode with cursor := start.step (name.length + 1) }.add start
      (token (String.ofList name)))

def scanTag? (l : Layout) : Option Layout := do
  let start := l.cursor
  let (t, rest) ← readTag start.rest
  if endsWord rest.head? || (l.inFlow && rest.head?.any isFlow) then
    return { l.startNode with cursor := start.stepTo rest }.add start (.tag t)
  else none

def scanPlain? (l : Layout) : Option Layout := do
  let start := l.cursor
  let l := l.startNode.undeepen
  if l.inFlow && start.column < l.indent + 1 then none
  else
    let (text, cursor) ← readPlain l.inFlow (l.indent + 1) (start.rest.length + 1) start
    return { l with cursor, keyAllowed := cursor.fresh }.add start (.plain (String.ofList text))

/-- Whether a character may follow a quoted scalar that starts in a line. -/
def mayFollowQuoted (l : Layout) (line : Nat) (c : Cursor) : Bool :=
  c.atLineEnd ||
  match c.next with
  | some ':' => l.inFlow || c.line = line
  | some ',' | some ']' | some '\x7d' => l.inFlow
  | _ => false

def scanQuoted? (l : Layout) (quote : Char) : Option Layout := do
  let start := l.cursor
  let l := l.startNode
  let (text, cursor) ← readQuoted quote l.indent (start.rest.length + 1) (start.step 1)
  let (_, cursor) ← cursor.skipBlanks?
  if l.mayFollowQuoted start.line cursor then
    let l ← { l with cursor }.toToken?
    return { l with adjacent := l.cursor.index }.add start (.quoted (String.ofList text))
  else none

def scanBlock? (l : Layout) (folds : Bool) : Option Layout := do
  let start := l.cursor
  let l := { l.saveKey with keyAllowed := true }.undeepen
  let (text, cursor) ← readBlock folds l.indent (start.step 1)
  return { l with cursor }.add start (.quoted (String.ofList text))

/-! ## All tokens -/

/-- Whether a colon starts a value. Within brackets it needs no blank before a bracket or
comma, nor after a quoted key. -/
def startsValue (l : Layout) : Bool :=
  let next := l.cursor.rest[1]?
  endsWord next || (l.inFlow && (next.any isFlow || l.cursor.index = l.adjacent))

/-- Scans the token that starts with a character. -/
def scanToken? (l : Layout) (c : Char) : Option Layout :=
  let alone := endsWord l.cursor.rest[1]?
  if l.cursor.column = 0 && c = '%' then l.scanDirective?
  else if l.cursor.atBoundary then l.scanBoundary?
  else if l.cursor.column < l.indent then none
  else
    match c with
    | '[' => l.scanOpening? true
    | '\x7b' => l.scanOpening? false
    | ']' => l.scanClosing? .flowSequenceEnd
    | '\x7d' => l.scanClosing? .flowMappingEnd
    | ',' => l.scanComma?
    | '*' => l.scanName? .alias
    | '&' => l.scanName? .anchor
    | '!' => l.scanTag?
    | '\x27' => l.scanQuoted? c
    | '"' => l.scanQuoted? c
    | '-' => if alone then l.scanItem? else l.scanPlain?
    | '?' => if alone then l.scanKey? else l.scanPlain?
    | ':' => if l.startsValue then l.scanValue? else l.scanPlain?
    | '|' => if l.inFlow then l.scanPlain? else l.scanBlock? false
    | '>' => if l.inFlow then l.scanPlain? else l.scanBlock? true
    | '%' | '@' | '\x60' => none
    | _ => l.scanPlain?

/-- Scans at most so many tokens, up to the end. -/
def scan? : Nat → Layout → Option (List Token)
  | 0, _ => none
  | bound + 1, l => do
    let l ← (← l.toToken?).dropStaleKey?
    let l := l.closeBlocks l.cursor.column
    match l.cursor.next with
    | none => return (← l.closeAll?).tokens.reverse
    | some c => scan? bound (← l.scanToken? c)

end Layout

/-- The tokens of a document. A character NUL ends it. -/
def tokens? (text : String) : Option (List Token) :=
  let cs := text.toList.takeWhile (· ≠ '\x00')
  (Layout.start cs).scan? (cs.length + 1)

end ToolAgent.Yaml
