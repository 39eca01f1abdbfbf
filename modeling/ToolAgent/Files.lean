/-
A tree of text files with a working directory. A path is followed from left to
right, and each part but the last must be a directory; `..` leads to the one
above, and above the root is the root.
-/
namespace ToolAgent

inductive FileError where
  | missing
  | notDirectory
  | isDirectory
  /-- A file stands where a directory is due. -/
  | occupied
  | nameTooLong
  | nulInPath
  deriving DecidableEq, Repr

def FileError.message : FileError → String
  | .missing => "No such file or directory (os error 2)"
  | .notDirectory => "Not a directory (os error 20)"
  | .isDirectory => "Is a directory (os error 21)"
  | .occupied => "File exists (os error 17)"
  | .nameTooLong => "File name too long (os error 36)"
  | .nulInPath => "file name contained an unexpected NUL byte"

namespace Files

/-- The names from the root to a file or directory. -/
abbrev Location := List String

inductive Entry where
  | directory
  | file (text : String)
  deriving DecidableEq, Repr

end Files

structure Files where
  here : Files.Location
  entries : List (Files.Location × Files.Entry)
  deriving Repr

namespace Files

/-- A tree with nothing but the working directory. -/
def empty (here : Location) : Files := ⟨here, (List.range (here.length + 1)).map fun n => (here.take n, .directory)⟩

def entry? (fs : Files) (l : Location) : Option Entry :=
  if l = [] then some .directory else fs.entries.lookup l

def setEntry (fs : Files) (l : Location) (e : Entry) : Files :=
  { fs with entries := (l, e) :: fs.entries.filter (·.1 ≠ l) }

/-! ## Paths -/

/-- The text between separators. -/
def split (cs : List Char) : List (List Char) := cs.splitOn '/'

/-- The parts of a path. A separator at its end asks for a directory. -/
def parts (path : String) : List String :=
  let all := (split path.toList).map String.ofList
  all.filter (· ≠ "") ++ (if all.getLast? = some "" then ["."] else [])

def root (fs : Files) (path : String) : Location :=
  if path.toList.head? = some '/' then [] else fs.here

/-- The parts that lead to the directory a path lies in. -/
def parentParts (path : String) : List String := ((parts path).filter (· ≠ ".")).dropLast

/-- The longest name, in bytes. -/
def longestName : Nat := 255

/-- Follows the parts of a path. Nothing need be at its end. -/
def follow (fs : Files) (l : Location) : List String → Except FileError Location
  | [] => .ok l
  | part :: rest =>
    match fs.entry? l with
    | none => .error .missing
    | some (.file _) => .error .notDirectory
    | some .directory =>
      if part = "." then fs.follow l rest
      else if part = ".." then fs.follow l.dropLast rest
      else if longestName < part.utf8ByteSize then .error .nameTooLong
      else fs.follow (l ++ [part]) rest

def locate (fs : Files) (path : String) : Except FileError Location :=
  if path.toList.contains '\x00' then .error .nulInPath
  else if path = "" then .error .missing
  else fs.follow (fs.root path) (parts path)

/-! ## Looking -/

def find? (fs : Files) (path : String) : Option Entry :=
  match fs.locate path with
  | .ok l => fs.entry? l
  | .error _ => none

def exists? (fs : Files) (path : String) : Bool := (fs.find? path).isSome

def isFile (fs : Files) (path : String) : Bool :=
  match fs.find? path with
  | some (.file _) => true
  | _ => false

def read (fs : Files) (path : String) : Except FileError String :=
  match fs.locate path with
  | .error e => .error e
  | .ok l =>
    match fs.entry? l with
    | none => .error .missing
    | some .directory => .error .isDirectory
    | some (.file text) => .ok text

/-! ## Changing -/

/-- Writes a file; the directory it lies in must be there. -/
def write (fs : Files) (path text : String) : Except FileError Files :=
  match fs.locate path with
  | .error e => .error e
  | .ok l =>
    match fs.entry? l with
    | some .directory => .error .isDirectory
    | _ => .ok (fs.setEntry l (.file text))

/-- Makes the directories that parts of a path name, as far as they are missing. -/
def makeDirectories (fs : Files) (l : Location) : List String → Except FileError Files
  | [] => .ok fs
  | part :: rest =>
    if part = ".." then fs.makeDirectories l.dropLast rest
    else if longestName < part.utf8ByteSize then .error .nameTooLong
    else
      let next := l ++ [part]
      match fs.entry? next with
      | some .directory => fs.makeDirectories next rest
      | some (.file _) => .error (if rest.isEmpty then .occupied else .notDirectory)
      | none => (fs.setEntry next .directory).makeDirectories next rest

/-- Writes a file, after making the directories it lies in. -/
def save (fs : Files) (path text : String) : Except FileError Files :=
  if path.toList.contains '\x00' then .error .nulInPath
  else
    match fs.makeDirectories (fs.root path) (parentParts path) with
    | .error e => .error e
    | .ok fs => fs.write path text

end Files
end ToolAgent
