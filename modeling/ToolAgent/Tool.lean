/-
Tools. What a tool does with its arguments is data, a `Body`: pauses and
cancellations, then an outcome. It depends on the arguments alone: a tool that
remembers its calls, or gives two equal ones different ends, is none of these.
-/
import ToolAgent.Clock
import ToolAgent.Json.Value
import ToolAgent.Message.Codec

namespace ToolAgent

/-- How a tool ends. -/
inductive Outcome where
  | value (v : Json)
  | failure (message : String)
  | panic
  deriving Repr, Inhabited

/-- What a tool does, step by step. -/
inductive Body where
  | finish (outcome : Outcome)
  /-- Lets time pass. -/
  | sleep (ms : Nat) (rest : Body)
  /-- Lets the other calls go first. -/
  | giveWay (rest : Body)
  /-- Goes on once the token is cancelled. -/
  | awaitCancel (rest : Body)
  /-- Cancels the token. -/
  | cancel (rest : Body)
  deriving Repr, Inhabited

namespace Body

/-- Gives way so many times. -/
def giveWayTimes : Nat → Body → Body
  | 0, rest => rest
  | n + 1, rest => .giveWay (giveWayTimes n rest)

/-- How many steps a body has. -/
def size : Body → Nat
  | .finish _ => 1
  | .sleep _ rest | .giveWay rest | .awaitCancel rest | .cancel rest => rest.size + 1

end Body

/-- A tool as it is described to a model. -/
structure ToolOffer where
  name : String
  description : String
  parameters : Json
  deriving Repr, Inhabited

def ToolOffer.toJson (s : ToolOffer) : Json :=
  .object [("name", .string s.name), ("description", .string s.description),
    ("parameters", s.parameters.sorted)]

def ToolOffer.decoder : Json.Decoder ToolOffer :=
  Json.Decoder.record "ToolSchema" <|
    .required "name" .string <|
    .required "description" .string <|
    .required "parameters" .json <|
    .done fun parameters description name => ⟨name, description, parameters⟩

structure Tool where
  name : String
  description : String
  parameters : Json
  body : Json → Body

namespace Tool

def offer (t : Tool) : ToolOffer := ⟨t.name, t.description, t.parameters⟩

/-- The schema of arguments about which nothing is known. -/
def anyObject : Json :=
  .object [("type", .string "object"), ("properties", .object []), ("required", .array [])]

/-- A schema of named arguments. -/
def argumentSchema (title : String) (required : List String) (properties : List (String × Json)) :
    Json :=
  .object [("$schema", .string "http://json-schema.org/draft-07/schema#"),
    ("title", .string title), ("type", .string "object"), ("required", Json.strings required),
    ("properties", .object properties)]

/-- Gives back the argument `text`. -/
def echo : Tool where
  name := "echo"
  description := "Echo text (for testing). Args: \x7b\"text\": \"message\"\x7d"
  parameters := argumentSchema "EchoArgs" ["text"]
    [("text", .object [("description", .string "要回显的文本"), ("type", .string "string")])]
  body args := .finish (.value (.string (((args.field? "text").bind Json.string?).getD "(empty)")))

end Tool
end ToolAgent
