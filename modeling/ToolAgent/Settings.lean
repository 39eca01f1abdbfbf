/-
What can be set about an agent from outside, and the blueprint it gives.
-/
import ToolAgent.Agent

namespace ToolAgent

structure Settings where
  name : String
  description : String
  /-- A blank one is the same as none. -/
  systemMessage : Option String
  reflects : Bool
  template : String
  bufferSize : Option Nat
  /-- Where the conversation is kept from run to run. -/
  statePath : Option String
  deriving DecidableEq, Repr

namespace Settings

/-- What holds as far as nothing is set. -/
def usual : Settings where
  name := "assistant"
  description := Blueprint.usualDescription
  systemMessage := some Blueprint.usualSystemMessage
  reflects := false
  template := Blueprint.usualTemplate
  bufferSize := none
  statePath := none

/-- The context that a buffer size asks for. -/
def context (s : Settings) : Except ConfigurationError Context :=
  match s.bufferSize with
  | none => .ok .unbounded
  | some 0 => .error .emptyBuffer
  | some n => .ok (.buffered n)

def blueprint (s : Settings) : Except ConfigurationError Blueprint :=
  match s.context with
  | .error e => .error e
  | .ok context => .ok { Blueprint.named s.name with
      description := s.description
      systemMessage := s.systemMessage.filter (!Text.isBlankText ·)
      reflects := s.reflects
      template := s.template
      context := context }

end Settings
end ToolAgent
