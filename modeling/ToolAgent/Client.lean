/-
The model an agent talks to. A client is given by what it can do and by how it
answers a request, which may take time, cancel the token and change the client's
own state.
-/
import ToolAgent.Error

namespace ToolAgent

structure Capabilities where
  functionCalling : Bool
  vision : Bool
  deriving DecidableEq, Repr, Inhabited

namespace Capabilities

/-- What is assumed of a model: tools but no pictures. -/
def usual : Capabilities := ⟨true, false⟩

def textOnly : Capabilities := ⟨false, false⟩

def toJson (c : Capabilities) : Json :=
  .object [("function_calling", .bool c.functionCalling), ("vision", .bool c.vision)]

def decoder : Json.Decoder Capabilities :=
  Json.Decoder.record "ModelCapabilities" <|
    .required "function_calling" .bool <|
    .required "vision" .bool <|
    .done fun vision functionCalling => ⟨functionCalling, vision⟩

end Capabilities

/-- A request: all the model gets to see, and the tools it may call. -/
structure Request where
  messages : List Message
  tools : List ToolOffer
  deriving Repr, Inhabited

def Request.toolNames (r : Request) : List String := r.tools.map (·.name)

inductive Reply where
  | result (r : Inference)
  | error (e : ClientError)
  | panic (payload : Payload)
  deriving Repr, Inhabited

structure Client (σ : Type) where
  capabilities : Capabilities
  create : σ → Request → Clock → Reply × σ × Clock

end ToolAgent
