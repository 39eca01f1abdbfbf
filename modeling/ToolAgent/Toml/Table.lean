/-
Tables while a document is read. A table is opened by its own header, or comes
into being because a header or a dotted key names something inside it. What is
opened is opened once, no key is defined twice, and a dotted key adds only to
tables that dotted keys made. Where several tables stand under one header, a path
goes on in the last of them.
-/
import ToolAgent.Toml.Value

namespace ToolAgent.Toml

/-- How a table came to be. -/
inductive Making where
  | opened
  /-- A header names something inside it. -/
  | implied
  /-- A dotted key names something inside it. -/
  | dotted
  deriving DecidableEq, Repr

inductive Item where
  | value (v : Toml)
  | table (making : Making) (fields : List (String × Item))
  /-- Tables under one header in double brackets, which are all opened. -/
  | tables (all : List (List (String × Item)))
  deriving Repr, Inhabited

abbrev Fields := List (String × Item)

namespace Fields

def get? (fs : Fields) (key : String) : Option Item := (fs.find? (·.1 = key)).map (·.2)

/-- Puts an item under a key, in its old place if it has one. -/
def set : Fields → String → Item → Fields
  | [], key, item => [(key, item)]
  | (k, i) :: fs, key, item => if k = key then (key, item) :: fs else (k, i) :: set fs key item

/-- Changes the table at the end of a path; tables that are missing on the way are
made. -/
def change (missing : Making) (f : Making → Fields → Option Fields) :
    List String → Making → Fields → Option Fields
  | [], making, fs => f making fs
  | key :: path, _, fs =>
    match fs.get? key with
    | none => (change missing f path missing []).map fun inner => fs.set key (.table missing inner)
    | some (.value _) => none
    | some (.table making inner) =>
      if missing = .dotted ∧ making = .opened then none
      else (change missing f path making inner).map fun inner => fs.set key (.table making inner)
    | some (.tables all) =>
      match all.reverse with
      | [] => none
      | inner :: before =>
        (change missing f path .opened inner).map fun inner =>
          fs.set key (.tables (inner :: before).reverse)

/-- Defines a key in a table. -/
def define (making : Making) (fs : Fields) (path : List String) (key : String) (v : Toml) :
    Option Fields :=
  let here (making : Making) (fs : Fields) : Option Fields :=
    if (making = .dotted) = (path = []) then none
    else
      match fs.get? key with
      | some _ => none
      | none => some (fs.set key (.value v))
  change .dotted here path making fs

/-- Opens a table by its header. -/
def openTable (fs : Fields) (path : List String) (key : String) : Option Fields :=
  let here (_ : Making) (fs : Fields) : Option Fields :=
    match fs.get? key with
    | none => some (fs.set key (.table .opened []))
    | some (.table .implied inner) => some (fs.set key (.table .opened inner))
    | some _ => none
  change .implied here path .opened fs

/-- Opens one more table under a header in double brackets. -/
def openAnother (fs : Fields) (path : List String) (key : String) : Option Fields :=
  let here (_ : Making) (fs : Fields) : Option Fields :=
    match fs.get? key with
    | none => some (fs.set key (.tables [[]]))
    | some (.tables all) => some (fs.set key (.tables (all ++ [[]])))
    | some _ => none
  change .implied here path .opened fs

/-- Defines a key in the table that a header has opened. -/
def defineIn (fs : Fields) (header : List String) (path : List String) (key : String) (v : Toml) :
    Option Fields :=
  change .implied (fun making inner => define making inner path key v) header .opened fs

end Fields

mutual

def Item.toToml : Item → Toml
  | .value v => v
  | .table _ fields => .table (fieldsToToml fields)
  | .tables all => .array (tablesToToml all)

def fieldsToToml : List (String × Item) → List (String × Toml)
  | [] => []
  | (k, i) :: fs => (k, i.toToml) :: fieldsToToml fs

def tablesToToml : List (List (String × Item)) → List Toml
  | [] => []
  | fs :: rest => .table (fieldsToToml fs) :: tablesToToml rest

end

end ToolAgent.Toml
