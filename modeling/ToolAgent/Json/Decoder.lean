/-
Typed reading of JSON trees.

A tree comes from a text, from a value, or from a part of a text that was set
aside until a tag was known (`Origin`). The three agree on what they accept,
except that the end of a list is checked in different words, and only a text has
faults and places.

The fields of a record are gathered in the order in which they are met, in a
`Form` with a slot per field. So of two errors the one met first wins, and
missing fields are noticed last, in the order of the slots.
-/
import ToolAgent.Json.Mismatch
import ToolAgent.Json.Reader

namespace ToolAgent.Json

inductive Origin where
  | text
  | value
  | setAside
  deriving DecidableEq, Repr

/-- How to read a tree as a value of a type. -/
def Decoder (α : Type) : Type := Origin → Node → Except DecodeError α

/-! ## Leaves -/

/-- A tree that has not the shape that was due. A text is at fault first where it
has no value; else the place is after a leaf or before a bracket. -/
def wrongType {α : Type} (o : Origin) (n : Node) (due : String) : Except DecodeError α :=
  let mismatch (seen : Sight) (p : Place) : Except DecodeError α :=
    .error (.mismatch (.type seen due) (if o = .text then some p else none))
  match n with
  | .null s => mismatch .null s.stop
  | .bool s b => mismatch (.bool b) s.stop
  | .number s v => mismatch (.ofNumber v) s.stop
  | .string s t => mismatch (.string t) s.stop
  | .array s _ _ => mismatch .list s.start
  | .object s _ _ => mismatch .map s.start
  | .void _ f => .error (.fault f)
  | .broken _ strict _ => .error (.fault strict)

/-- A mismatch at a place of a text. -/
def misfit {α : Type} (o : Origin) (m : Mismatch) (p : Place) : Except DecodeError α :=
  .error (.mismatch m (if o = .text then some p else none))

/-- Entering a bracket of a text, which must not nest too deep. -/
def enter (o : Origin) (span : Span) (level : Nat) : Except DecodeError Unit :=
  if o = .text then
    match Node.enter span level with
    | .ok () => .ok ()
    | .error f => .error (.fault f)
  else .ok ()

namespace Decoder

/-- Reads as another type. -/
def map {α β : Type} (f : α → β) (d : Decoder α) : Decoder β := fun o n =>
  match d o n with
  | .ok a => .ok (f a)
  | .error e => .error e

def string : Decoder String := fun o n =>
  match n with
  | .string _ s => .ok s
  | n => wrongType o n "a string"

def bool : Decoder Bool := fun o n =>
  match n with
  | .bool _ b => .ok b
  | n => wrongType o n "a boolean"

/-- A count that fits an unsigned word. -/
def word : Decoder UInt64 := fun o n =>
  match n with
  | .number s (.int i) =>
    if Word.Unsigned i then .ok (UInt64.ofNat i.toNat)
    else misfit o (.value (.int i) "u64") s.stop
  | n => wrongType o n "u64"

/-- Null, where nothing else is due. -/
def unit : Decoder Unit := fun o n =>
  match n with
  | .null _ => .ok ()
  | n => wrongType o n "unit"

/-- Any value, as free-form data. -/
def json : Decoder Json := fun _ n =>
  match n.value with
  | .ok v => .ok v
  | .error f => .error (.fault f)

/-- Null stands for absence. -/
def optional {α : Type} (d : Decoder α) : Decoder (Option α) := fun o n =>
  match n with
  | .null _ => .ok none
  | n =>
    match d o n with
    | .ok a => .ok (some a)
    | .error e => .error e

def items {α : Type} (d : Decoder α) (o : Origin) : List Node → Except DecodeError (List α)
  | [] => .ok []
  | n :: ns =>
    match d o n with
    | .error e => .error (if o = .text then e.settle n.span.settled else e)
    | .ok a =>
      match items d o ns with
      | .error e => .error e
      | .ok as => .ok (a :: as)

def list {α : Type} (d : Decoder α) : Decoder (List α) := fun o n =>
  match n with
  | .array span level ns =>
    match enter o span level with
    | .error e => .error e
    | .ok () => items d o ns
  | n => wrongType o n "a sequence"

end Decoder

/-! ## Records -/

/-- A record being filled in: slots by name, and the record once all are filled. -/
inductive Form : Type → Type 1 where
  | done {α : Type} (value : α) : Form α
  | slot {α β : Type} (name : String) (decode : Decoder β) (absent : Option β) (held : Option β)
      (rest : Form (β → α)) : Form α

namespace Form

/-- A slot that must be filled. -/
def required {α β : Type} (name : String) (d : Decoder β) (rest : Form (β → α)) : Form α :=
  .slot name d none none rest

/-- A slot that has a value of its own when it is not filled. -/
def defaulted {α β : Type} (name : String) (d : Decoder β) (absent : β) (rest : Form (β → α)) :
    Form α :=
  .slot name d (some absent) none rest

def size {α : Type} : Form α → Nat
  | .done _ => 0
  | .slot _ _ _ _ rest => rest.size + 1

/-- What becomes of a form that is offered a field. -/
inductive Offer (α : Type) : Type 1 where
  | unknown
  | repeated
  | failed (e : DecodeError)
  | filled (form : Form α)

/-- Fills the slot of a name. -/
def offer {α : Type} (o : Origin) (name : String) (n : Node) : Form α → Offer α
  | .done _ => .unknown
  | .slot slotName d absent held rest =>
    if slotName = name then
      match held with
      | some _ => .repeated
      | none =>
        match d o n with
        | .error e => .failed e
        | .ok b => .filled (.slot slotName d absent (some b) rest)
    else
      match offer o name n rest with
      | .unknown => .unknown
      | .repeated => .repeated
      | .failed e => .failed e
      | .filled rest => .filled (.slot slotName d absent held rest)

/-- The record, or the name of the first slot that has no value. -/
def close {α : Type} : Form α → Except String α
  | .done a => .ok a
  | .slot name _ absent held rest =>
    match held.or absent with
    | none => .error name
    | some b =>
      match rest.close with
      | .error missing => .error missing
      | .ok f => .ok (f b)

/-- Fills a form from the members of an object that stops at a place. Members
without a slot are passed over. -/
def fill {α : Type} (o : Origin) (stop : Place) : Form α → List (Label × Node) → Except DecodeError α
  | form, [] =>
    match form.close with
    | .ok a => .ok a
    | .error missing => misfit o (.missing missing) stop
  | form, (label, n) :: ms =>
    match label.name with
    | .error f => .error (.fault f)
    | .ok name =>
      match form.offer o name n with
      | .repeated => misfit o (.repeated name) label.settled
      | .failed e => .error (if o = .text then e.settle n.span.settled else e)
      | .filled form => fill o stop form ms
      | .unknown =>
        match if o = .text then n.laxFault? else none with
        | some f => .error (.fault f)
        | none => fill o stop form ms

/-- `1 element`, `2 elements`. -/
def elements (count : Nat) : String :=
  toString count ++ (if count = 1 then " element" else " elements")

/-- Fills the slots by position; what is left is handed back. -/
def fillInOrder {α : Type} (o : Origin) (due : String) (stop : Place) :
    Form α → Nat → List Node → Except DecodeError (α × List Node)
  | .done a, _, ns => .ok (a, ns)
  | .slot _ _ (some b) _ rest, i, [] =>
    match fillInOrder o due stop rest (i + 1) [] with
    | .error e => .error e
    | .ok (f, ns) => .ok (f b, ns)
  | .slot _ _ none _ _, i, [] => misfit o (.length i due) stop
  | .slot _ d _ _ rest, i, n :: ns =>
    match d o n with
    | .error e => .error (if o = .text then e.settle n.span.settled else e)
    | .ok b =>
      match fillInOrder o due stop rest (i + 1) ns with
      | .error e => .error e
      | .ok (f, ns) => .ok (f b, ns)

/-- A text goes on where a list was to end. -/
def beyondLast : Node → Fault
  | .broken start strict _ =>
    if strict.flaw = .trailingComma ∨ strict.flaw = .endInList then strict
    else if strict.flaw = .expectedListEnd ∨ strict.place = start then
      ⟨.trailingCharacters, strict.place⟩
    else ⟨.trailingCharacters, start.into ','⟩
  | n => ⟨.trailingCharacters, n.span.start.into ','⟩

/-- Reads a list of fields by position. Items beyond the last slot are refused, in
the words of the origin. -/
def readList {α : Type} (o : Origin) (title : String) (form : Form α) (stop : Place)
    (ns : List Node) : Except DecodeError α :=
  match form.fillInOrder o (title ++ " with " ++ elements form.size) stop 0 ns with
  | .error e => .error e
  | .ok (a, []) => .ok a
  | .ok (_, n :: rest) =>
    let taken := ns.length - rest.length - 1
    match o with
    | .text => .error (.fault (beyondLast n))
    | .value => .error (.mismatch (.length ns.length "fewer elements in array") none)
    | .setAside => .error (.mismatch (.length ns.length (elements taken ++ " in sequence")) none)

end Form

namespace Decoder

/-- A record, given by field names or as the list of its fields. -/
def record {α : Type} (name : String) (form : Form α) : Decoder α := fun o n =>
  match n with
  | .object span level ms =>
    match enter o span level with
    | .error e => .error e
    | .ok () => form.fill o span.stop ms
  | .array span level ns =>
    match enter o span level with
    | .error e => .error e
    | .ok () => form.readList o ("struct " ++ name) span.stop ns
  | n => wrongType o n ("struct " ++ name)

/-! ## Variants told apart by a key -/

/-- The variants of a type by name. -/
abbrev Variants (α : Type) := List (String × Decoder α)

def Variants.find {α : Type} (vs : Variants α) (name : String) : Except Mismatch (Decoder α) :=
  match vs.find? (·.1 = name) with
  | some (_, d) => .ok d
  | none => .error (.variant name (vs.map (·.1)))

/-- A variant as an object of one member, whose key names it. A text that starts
otherwise is at fault; a string would name a variant without contents, which
these variants are not. -/
def keyed {α : Type} (vs : Variants α) : Decoder α := fun o n =>
  match n with
  | .string s name =>
    match vs.find name with
    | .error m => misfit o m s.stop
    | .ok _ => misfit o (.type .bareVariant "newtype variant") s.stop
  | .object span level ms =>
    match o with
    | .text =>
      match enter o span level with
      | .error e => .error e
      | .ok () =>
        match ms with
        | [] => .error (.fault ⟨.expectedValue, span.stop⟩)
        | (label, n) :: rest =>
          match label.name with
          | .error f => .error (.fault f)
          | .ok name =>
            match vs.find name with
            | .error m => .error (.mismatch m (some label.settled))
            | .ok d =>
              match d o n, rest with
              | .error e, _ => .error (e.settle n.span.settled)
              | .ok a, [] => .ok a
              | .ok _, (after, _) :: _ =>
                match after.name with
                | .error ⟨.endInObject, p⟩ => .error (.fault ⟨.endInObject, p⟩)
                | _ => .error (.fault ⟨.expectedValue, n.span.settled⟩)
    | _ =>
      match ms with
      | [(label, n)] =>
        match label.name with
        | .error f => .error (.fault f)
        | .ok name =>
          match vs.find name with
          | .error m => .error (.mismatch m none)
          | .ok d => d o n
      | _ => .error (.mismatch (.value .map "map with a single key") none)
  | n =>
    match o, n with
    | .text, .broken start strict _ =>
      .error (.fault (if strict.place = start || strict.flaw.isInString then strict
        else ⟨.expectedValue, start.into ','⟩))
    | .text, .void span f =>
      .error (.fault (if f.flaw.isInString then f else ⟨.expectedValue, span.start.into ','⟩))
    | .text, n => .error (.fault ⟨.expectedValue, n.span.start.into ','⟩)
    | o, n => wrongType o n "string or map"

/-- A variant without contents, as a string that names it. -/
def named {α : Type} (vs : List (String × α)) : Decoder α := fun o n =>
  match n with
  | .string s name =>
    match vs.find? (·.1 = name) with
    | some (_, a) => .ok a
    | none => misfit o (.variant name (vs.map (·.1))) s.stop
  | n => keyed (vs.map fun v => (v.1, unit.map fun _ => v.2)) o n

/-! ## Variants told apart by a tag -/

/-- The variants of a tagged type: the name of each and its fields. -/
inductive Tagged (α : Type) : Type 1 where
  | nil
  | cons (tag : String) (title : String) (form : Form α) (rest : Tagged α)

namespace Tagged

def tags {α : Type} : Tagged α → List String
  | .nil => []
  | .cons tag _ _ rest => tag :: rest.tags

/-- Reads the contents, which were set aside, as the variant of a tag. -/
def read {α : Type} (tag : String) (contents : Node) : Tagged α → Option (Except DecodeError α)
  | .nil => none
  | .cons t title form rest =>
    if t = tag then
      match contents with
      | .object span _ ms => some (form.fill .setAside span.stop ms)
      | .array span _ ns => some (form.readList .setAside ("struct variant " ++ title) span.stop ns)
      | n => some (wrongType .setAside n ("struct variant " ++ title))
    else rest.read tag contents

end Tagged

/-- The tag of a variant. -/
def tagName (tags : List String) : Decoder String := fun o n =>
  match n with
  | .string s name =>
    if name ∈ tags then .ok name else misfit o (.variant name tags) s.stop
  | n => wrongType o n "variant identifier"

/-- Parts the tag from the other members, all of which are read for their value. -/
def splitTag (o : Origin) (tags : List String) :
    Option String → List (Label × Node) → Except DecodeError (Option String × List (Label × Node))
  | tag, [] => .ok (tag, [])
  | tag, (label, n) :: ms =>
    match label.name with
    | .error f => .error (.fault f)
    | .ok "type" =>
      match tag with
      | some _ => misfit o (.repeated "type") label.settled
      | none =>
        match tagName tags o n with
        | .error e => .error e
        | .ok name => splitTag o tags (some name) ms
    | .ok _ =>
      match n.value with
      | .error f => .error (.fault f)
      | .ok _ =>
        match splitTag o tags tag ms with
        | .error e => .error e
        | .ok (tag, others) => .ok (tag, (label, n) :: others)

/-- A variant with the member `type` as its tag, or as a list that starts with it. -/
def tagged {α : Type} (name : String) (vs : Tagged α) : Decoder α := fun o n =>
  let finish (tag : String) (contents : Node) : Except DecodeError α :=
    match vs.read tag contents with
    | some r => r
    | none => .error (.mismatch (.variant tag vs.tags) none)
  match n with
  | .object span level ms =>
    match enter o span level with
    | .error e => .error e
    | .ok () =>
      match splitTag o vs.tags none ms with
      | .error e => .error e
      | .ok (none, _) => misfit o (.missing "type") span.stop
      | .ok (some tag, others) => finish tag (.object span level others)
  | .array span level ns =>
    match enter o span level with
    | .error e => .error e
    | .ok () =>
      match ns with
      | [] => misfit o (.missing "type") span.stop
      | n :: ns =>
        match tagName vs.tags o n with
        | .error e => .error e
        | .ok tag =>
          match Node.values ns with
          | .error f => .error (.fault f)
          | .ok _ => finish tag (.array span level ns)
  | n => wrongType o n ("internally tagged enum " ++ name)

end Decoder

/-! ## Whole texts and values -/

/-- Reads a text, which must hold nothing after the value. -/
def Decoder.readText {α : Type} (d : Decoder α) (text : String) : Except DecodeError α :=
  let doc := Document.read text
  match d .text doc.root with
  | .error e => .error e
  | .ok a =>
    match doc.trailing with
    | some f => .error (.fault f)
    | none => .ok a

def Decoder.readJson {α : Type} (d : Decoder α) (v : Json) : Except DecodeError α :=
  d .value (.ofJson v)

end ToolAgent.Json
