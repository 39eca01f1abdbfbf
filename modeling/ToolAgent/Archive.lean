/-
Transcripts kept in files, as JSON text over several lines. A file that does not
exist stands for a transcript without messages.
-/
import ToolAgent.Files
import ToolAgent.Message.Codec

namespace ToolAgent

inductive ArchiveError where
  | file (e : FileError)
  | text (e : Json.DecodeError)
  deriving DecidableEq, Repr

/-- The message, with places in the text. -/
def ArchiveError.message : ArchiveError → String
  | .file e => e.message
  | .text e => e.placedMessage

namespace Transcript

def empty : Transcript := ⟨[]⟩

/-- The text of a transcript's file. -/
def text (t : Transcript) : String := t.toJson.pretty

def ofText (s : String) : Except ArchiveError Transcript :=
  match decoder.readText s with
  | .ok t => .ok t
  | .error e => .error (.text e)

def load (fs : Files) (path : String) : Except ArchiveError Transcript :=
  if fs.exists? path then
    match fs.read path with
    | .error e => .error (.file e)
    | .ok s => ofText s
  else .ok empty

def save (t : Transcript) (fs : Files) (path : String) : Except FileError Files :=
  fs.save path t.text

end Transcript
end ToolAgent
