/-
Memory. A provider may put messages into the context before a turn's first
inference. `Notebook` keeps pieces of text and finds those that share words
with the user's last message.
-/
import ToolAgent.Clock
import ToolAgent.Context
import ToolAgent.Error
import ToolAgent.Event
import ToolAgent.Text.Alphanumeric
import ToolAgent.Text.Blank
import ToolAgent.Text.Case

namespace ToolAgent

/-- What a provider answers. -/
inductive Recall where
  | items (items : List MemoryItem)
  | failure (provider message : String)
  | panic (payload : Payload)
  deriving Repr, Inhabited

/-- A provider gives new messages for those of the context, and answers what it put
there. It may take its time, and cancel the token. -/
structure Provider where
  name : String
  update : Context → Clock → List Message × Recall × Clock

/-- A provider that adds fixed messages, may then empty the context, and answers
always the same, at once. -/
def Provider.scripted (name : String) (additions : List Message) (clears : Bool) (answer : Recall) :
    Provider where
  name := name
  update c clock := (if clears then [] else c.messages ++ additions, answer, clock)

/-! ## Words -/

/-- Drops what is neither letter nor number at both ends of a word. -/
def trimWord (cs : List Char) : List Char :=
  ((cs.dropWhile (!Text.isAlphanumeric ·)).reverse.dropWhile (!Text.isAlphanumeric ·)).reverse

/-- The words of a text that count for searching: in lower case, of two characters or
more, each once. -/
def tokens (text : String) : List String :=
  let ws := (Text.words text.toList).map fun w => Text.lower (trimWord w)
  ((ws.filter (1 < ·.length)).map String.ofList).eraseDups

/-! ## Notebooks -/

/-- Memory in a list, which forgets the oldest pieces beyond a number of entries. -/
structure Notebook where
  name : String
  maxResults : Nat
  maxEntries : Nat
  /-- The pieces, oldest first, with their words. -/
  entries : List (MemoryItem × List String)
  deriving Repr, Inhabited

namespace Notebook

def new (name : String) (maxResults : Nat) : Notebook := ⟨name, maxResults, 1000, []⟩

/-- Limits the number of entries, at least one. -/
def limitedTo (m : Notebook) (n : Nat) : Notebook := { m with maxEntries := max n 1 }

/-- Adds a piece, with the words of its text between the blanks around it, unless nothing is
between them; the oldest ones make room. -/
def add (m : Notebook) (item : MemoryItem) : Notebook :=
  match Text.trim item.content.toList with
  | [] => m
  | text =>
    let entries := m.entries ++ [(item, tokens (String.ofList text))]
    { m with entries := entries.drop (entries.length - m.maxEntries) }

def addAll (m : Notebook) (items : List MemoryItem) : Notebook := items.foldl add m

def size (m : Notebook) : Nat := m.entries.length

/-- How many words two lists of distinct words share. -/
def overlap (query words : List String) : Nat := (query.filter (words.contains ·)).length

/-- The entries that share most words with a query, the older first among equals. -/
def search (m : Notebook) (query : String) : List MemoryItem :=
  let q := tokens query
  let scored := m.entries.map fun (item, words) => (item, overlap q words)
  let ranked := (scored.filter (0 < ·.2)).mergeSort fun a b => b.2 ≤ a.2
  (ranked.take m.maxResults).map (·.1)

/-- Numbered lines. -/
def numbered (items : List MemoryItem) : String :=
  "\n".intercalate (items.zipIdx.map fun (item, i) => toString (i + 1) ++ ". " ++ item.content)

/-- Finds what the user's last message recalls and puts it into a system message. -/
def update (m : Notebook) (c : Context) : Context × Recall :=
  match c.lastUserText? with
  | none => (c, .items [])
  | some query =>
    match m.search query with
    | [] => (c, .items [])
    | items => (c.add (.system ("Relevant memory content:\n" ++ numbered items)), .items items)

def provider (m : Notebook) : Provider where
  name := m.name
  update c clock :=
    let (c, answer) := m.update c
    (c.messages, answer, clock)

end Notebook
end ToolAgent
