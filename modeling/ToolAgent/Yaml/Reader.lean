/-
YAML documents, from their tokens. Where a text may hold several documents one with
settings holds one at most, and a table has no two equal keys.
-/
import ToolAgent.Yaml.Node
import ToolAgent.Yaml.Tokens

namespace ToolAgent.Yaml

/-- Tokens to be read, and what has been read that later ones refer to. -/
structure Reader where
  tokens : List Token
  /-- The starts of names that handles stand for. -/
  handles : List (String × String)
  /-- The nodes with an anchor, the last first; none while a node is being read. -/
  anchors : List (String × Option Node)

namespace Reader

def next (r : Reader) : Option Token := r.tokens.head?

def skip (r : Reader) : Reader := { r with tokens := r.tokens.drop 1 }

/-! ## Properties of nodes -/

/-- What precedes a node: the number of its anchor, and the full name of its tag in two
parts. -/
structure Properties where
  anchor : Option Nat
  tag : Option (String × String)

def standardStart : String := "tag:yaml.org,2002:"

/-- The full name of a tag. A handle between two marks must have been declared. -/
def resolve? (r : Reader) (t : Tag) : Option (String × String) :=
  match r.handles.lookup t.handle with
  | some start => some (start, t.suffix)
  | none =>
    if t.handle = "!!" then some (standardStart, t.suffix)
    else if isWholeHandle t.handle.toList then none
    else some (t.handle, t.suffix)

/-- Starts the node with an anchor. -/
def declare (r : Reader) (name : String) : Nat × Reader :=
  (r.anchors.length, { r with anchors := (name, none) :: r.anchors })

/-- Ends the node with an anchor. -/
def settle (r : Reader) (anchor : Option Nat) (v : Node) : Reader :=
  match anchor with
  | none => r
  | some i =>
    { r with anchors := r.anchors.modify (r.anchors.length - 1 - i) fun (name, _) => (name, some v) }

/-- Reads an anchor, a tag, or both in any order. -/
def readProperties (r : Reader) : Option (Properties × Reader) :=
  match r.tokens with
  | .anchor name :: .tag t :: _ => do
    let (i, r) := r.skip.skip.declare name
    return (⟨some i, some (← r.resolve? t)⟩, r)
  | .tag t :: .anchor name :: _ => do
    let (i, r) := r.skip.skip.declare name
    return (⟨some i, some (← r.resolve? t)⟩, r)
  | .anchor name :: _ =>
    let (i, r) := r.skip.declare name
    some (⟨some i, none⟩, r)
  | .tag t :: _ => do return (⟨none, some (← r.resolve? t)⟩, r.skip)
  | _ => some (⟨none, none⟩, r)

/-- A plain scalar with a tag or without. -/
def atom (tag : Option (String × String)) (s : String) : Atom :=
  match tag with
  | none => .ofPlain s
  | some (start, type) => if start = standardStart then .ofTyped type s else .text s

/-- A node of which there are only properties. -/
def readEmpty (p : Properties) (r : Reader) : Option (Node × Reader) :=
  if p.anchor.isNone && p.tag.isNone then none else some (.atom (atom p.tag ""), r)

/-- Adds a field to a table in which there must be none of the same key. -/
def addField? (k v : Node) (fields : List (Atom × Node)) : Option (List (Atom × Node)) :=
  match k with
  | .atom a => if fields.any (·.1 = a) then none else some (fields ++ [(a, v)])
  | _ => none

def nothing : Node := .atom .nothing

/-! ## Nodes -/

mutual

/-- Reads a node, in at most so many steps: in a block, or in a table also a list that is
indented as the table. -/
def readNode : Nat → (inBlock mayIndentLess : Bool) → Reader → Option (Node × Reader)
  | 0, _, _, _ => none
  | bound + 1, inBlock, mayIndentLess, r =>
    match r.next with
    | some (.alias name) => (r.anchors.lookup name).map fun v => (v.getD (.atom .malformed), r.skip)
    | _ => do
      let (p, r) ← r.readProperties
      let (v, r) ←
        match r.next with
        | some (.plain s) => some (.atom (atom p.tag s), r.skip)
        | some (.quoted s) => some (.atom (.text s), r.skip)
        | some .item =>
          if mayIndentLess then (readItems bound r).map fun (vs, r) => (.list vs, r)
          else readEmpty p r
        | some .blockSequence =>
          if inBlock then
            (readItems bound r.skip).bind fun (vs, r) =>
              if r.next = some .blockEnd then some (.list vs, r.skip) else none
          else readEmpty p r
        | some .blockMapping =>
          if inBlock then (readFields bound [] r.skip).map fun (fs, r) => (.table fs, r)
          else readEmpty p r
        | some .flowSequence => (readFlowItems bound r.skip).map fun (vs, r) => (.list vs, r)
        | some .flowMapping => (readFlowFields bound [] r.skip).map fun (fs, r) => (.table fs, r)
        | _ => readEmpty p r
      return (v, r.settle p.anchor v)

/-- Reads the items of a block, as long as their marks come. -/
def readItems : Nat → Reader → Option (List Node × Reader)
  | 0, _ => none
  | bound + 1, r =>
    if r.next ≠ some .item then some ([], r)
    else do
      let (v, r) ← readOr bound [.item, .key, .value, .blockEnd] true false r.skip
      let (vs, r) ← readItems bound r
      return (v :: vs, r)

/-- Reads the fields of a block. -/
def readFields : Nat → List (Atom × Node) → Reader → Option (List (Atom × Node) × Reader)
  | 0, _, _ => none
  | bound + 1, fields, r =>
    match r.next with
    | some .blockEnd => some (fields, r.skip)
    | some .key => do
      let ((k, v), r) ← readField bound [.key, .value, .blockEnd] true r.skip
      readFields bound (← addField? k v fields) r
    | _ => none

/-- Reads the items of a list in brackets. A field among them is a table of its own. -/
def readFlowItems : Nat → Reader → Option (List Node × Reader)
  | 0, _ => none
  | bound + 1, r => do
    if r.next = some .flowSequenceEnd then return ([], r.skip)
    let (v, r) ←
      if r.next = some .key then
        (readField bound [.comma, .flowSequenceEnd] false r.skip).bind fun ((k, v), r) =>
          (addField? k v []).map fun fields => (.table fields, r)
      else readNode bound false false r
    match r.next with
    | some .comma =>
      let (vs, r) ← readFlowItems bound r.skip
      return (v :: vs, r)
    | some .flowSequenceEnd => return ([v], r.skip)
    | _ => none

/-- Reads the fields of a table in braces. One without a value holds nothing. -/
def readFlowFields : Nat → List (Atom × Node) → Reader → Option (List (Atom × Node) × Reader)
  | 0, _, _ => none
  | bound + 1, fields, r => do
    if r.next = some .flowMappingEnd then return (fields, r.skip)
    let ((k, v), r) ←
      if r.next = some .key then readField bound [.comma, .flowMappingEnd] false r.skip
      else (readNode bound false false r).map fun (k, r) => ((k, nothing), r)
    let fields ← addField? k v fields
    match r.next with
    | some .comma => readFlowFields bound fields r.skip
    | some .flowMappingEnd => return (fields, r.skip)
    | _ => none

/-- Reads a field after the mark of its key. Its value may be left out, before some
tokens too. -/
def readField : Nat → List Token → Bool → Reader → Option ((Node × Node) × Reader)
  | 0, _, _, _ => none
  | bound + 1, stops, inBlock, r => do
    let (k, r) ← readNode bound inBlock inBlock r
    if r.next = some .value then
      let (v, r) ← readOr bound stops inBlock inBlock r.skip
      return ((k, v), r)
    else return ((k, nothing), r)

/-- Reads a node unless it is left out, before some tokens. -/
def readOr : Nat → List Token → Bool → Bool → Reader → Option (Node × Reader)
  | 0, _, _, _, _ => none
  | bound + 1, stops, inBlock, mayIndentLess, r =>
    if r.next.any (stops.contains ·) then some (nothing, r) else readNode bound inBlock mayIndentLess r

end

/-! ## Documents -/

/-- Reads the directives before a document, of which the last counts, and the mark of its
start. The version is told once at most. -/
def readDirectives (versionTold : Bool) (handles : List (String × String)) :
    List Token → Option Reader
  | .version :: ts => if versionTold then none else readDirectives true [] ts
  | .handle name start :: ts => readDirectives versionTold [(name, start)] ts
  | .documentStart :: ts => some ⟨ts, handles, []⟩
  | _ => none

/-- The place where the node of a document starts. -/
def start? : List Token → Option Reader
  | .version :: ts => readDirectives false [] (.version :: ts)
  | .handle name start :: ts => readDirectives false [] (.handle name start :: ts)
  | .documentStart :: ts => readDirectives false [] (.documentStart :: ts)
  | ts => some ⟨ts, [], []⟩

/-- The node of the only document; an empty table if there is none. -/
def document? (tokens : List Token) : Option Node := do
  let tokens := tokens.dropWhile (· = .documentEnd)
  if tokens.isEmpty then return .table []
  let r ← start? tokens
  if r.tokens.all (· = .documentEnd) then return nothing
  let (v, r) ← readNode (5 * tokens.length + 5) true false r
  if r.tokens.all (· = .documentEnd) then return v else none

end Reader

/-- The value of a document. -/
def datum? (text : String) : Option Datum := do
  (← Reader.document? (← tokens? text)).datum?

end ToolAgent.Yaml
