/-
The state of an agent as saved: the transcript of its conversation, with a kind
and a version. Loading checks the kind, and takes any version.
-/
import ToolAgent.Context
import ToolAgent.Error
import ToolAgent.Message.Codec

namespace ToolAgent

structure SavedState where
  kind : String
  version : String
  transcript : Transcript
  deriving DecidableEq, Repr

namespace SavedState

def ownKind : String := "AssistantAgentState"

def ownVersion : String := "1.0.0"

def of (t : Transcript) : SavedState := ⟨ownKind, ownVersion, t⟩

def toJson (s : SavedState) : Json :=
  .object [("type", .string s.kind), ("version", .string s.version),
    ("llm_context", s.transcript.toJson)]

def decoder : Json.Decoder SavedState :=
  Json.Decoder.record "AgentState" <|
    .defaulted "type" .string ownKind <|
    .defaulted "version" .string ownVersion <|
    .required "llm_context" Transcript.decoder <|
    .done fun transcript version kind => ⟨kind, version, transcript⟩

/-- Reads a state of the own kind from its JSON value. -/
def ofJson (v : Json) : Except StateError SavedState :=
  match decoder.readJson v with
  | .error e => .error (.malformed e)
  | .ok s => if s.kind = ownKind then .ok s else .error (.otherKind s.kind)

end SavedState

namespace Context

def saveState (c : Context) : SavedState := .of c.save

/-- Loads a state; the context stays as it is when that fails. -/
def loadJson (c : Context) (v : Json) : Except StateError Context :=
  match SavedState.ofJson v with
  | .error e => .error e
  | .ok s => .ok (c.load s.transcript)

end Context
end ToolAgent
