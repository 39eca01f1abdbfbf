/-
Settings as they are gathered from files and from the environment, before they
are given their types. Each remembers where it comes from, except a table, which
may be put together from several sources.

Keys ignore case: they are put into lower case wherever a table is extended.
-/
import ToolAgent.Datum
import ToolAgent.Text.Case

namespace ToolAgent

inductive Setting where
  | scalar (origin : Option String) (v : Scalar)
  | list (origin : Option String) (items : List Setting)
  | table (origin : Option String) (fields : List (String × Setting))
  deriving Repr, Inhabited

namespace Setting

def nothing : Setting := .scalar none .nothing

def emptyTable : Setting := .table none []

mutual

/-- A setting in a document. -/
def ofDatum (origin : String) : Datum → Setting
  | .scalar v => .scalar origin v
  | .list items => .list origin (ofItems origin items)
  | .table fields => .table origin (ofFields origin fields)

def ofItems (origin : String) : List Datum → List Setting
  | [] => []
  | v :: vs => ofDatum origin v :: ofItems origin vs

def ofFields (origin : String) : List (String × Datum) → List (String × Setting)
  | [] => []
  | (k, v) :: fs => (k, ofDatum origin v) :: ofFields origin fs

end

/-! ## Tables -/

/-- The field of a table. -/
def field? (s : Setting) (key : String) : Option Setting :=
  match s with
  | .table _ fields => fields.lookup key
  | _ => none

/-- Sets a field; what is no table becomes one. -/
def withField (s : Setting) (key : String) (v : Setting) : Setting :=
  match s with
  | .table origin fields => .table origin (Datum.setField key v fields)
  | _ => .table none [(key, v)]

mutual

/-- Puts a setting under a key. A table is put in field by field, so that it extends
the one that is there; anything else takes the place of what is there. -/
def put (s : Setting) (key : String) : Setting → Setting
  | .table _ fields =>
    s.withField (Text.lowerText key) (putAll ((s.field? (Text.lowerText key)).getD emptyTable) fields)
  | .scalar origin v => s.withField (Text.lowerText key) (.scalar origin v)
  | .list origin items => s.withField (Text.lowerText key) (.list origin items)

def putAll (s : Setting) : List (String × Setting) → Setting
  | [] => s
  | (k, v) :: rest => putAll (put s k v) rest

end

/-! ## Lists -/

def item? (s : Setting) (i : Nat) : Option Setting :=
  match s with
  | .list _ items => items[i]?
  | _ => none

def size (s : Setting) : Nat :=
  match s with
  | .list _ items => items.length
  | _ => 0

/-- Sets an item; what is no list becomes one, and a list that is too short is
filled up with nothing. -/
def withItem (s : Setting) (i : Nat) (v : Setting) : Setting :=
  let extended (items : List Setting) := items ++ List.replicate (i + 1 - items.length) nothing
  match s with
  | .list origin items => .list origin ((extended items).set i v)
  | _ => .list none ((extended []).set i v)

end Setting
end ToolAgent
