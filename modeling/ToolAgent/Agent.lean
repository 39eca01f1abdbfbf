/-
Agents and how they are put together. A `Blueprint` gathers what an agent is to
be made of; building it checks the client's capabilities and the names of tools
and handoffs.
-/
import ToolAgent.Client
import ToolAgent.Memory

namespace ToolAgent

structure Agent where
  name : String
  description : String
  registry : Registry
  memory : List Provider
  /-- Stands before every request, and is never stored. -/
  systemMessage : Option String
  /-- Whether the model is asked once more, with the results of its tool calls. -/
  reflects : Bool
  /-- The template for summaries of tool calls. -/
  template : String
  /-- The context a conversation starts with. -/
  opening : Context

namespace Agent

def systemMessages (a : Agent) : List Message := (a.systemMessage.map Message.system).toList

/-- The kinds of chat message a turn may end with. -/
def kinds (a : Agent) : List ChatMessage.Kind :=
  [.text] ++ (if a.registry.hasHandoffs then [.handoff] else [])
    ++ (if a.registry.hasTools then [.toolCallSummary] else [])

end Agent

structure Blueprint where
  name : String
  description : String
  systemMessage : Option String
  tools : List Tool
  handoffs : List Handoff
  memory : List Provider
  context : Context
  reflects : Bool
  template : String

namespace Blueprint

def usualDescription : String := "An agent that provides assistance with ability to use tools."

def usualSystemMessage : String :=
  "You are a helpful AI assistant. Solve tasks using your tools. "
    ++ "Reply with TERMINATE when the task has been completed."

/-- The result alone. -/
def usualTemplate : String := "\x7bresult\x7d"

/-- An agent of a name, without tools. -/
def named (name : String) : Blueprint where
  name := name
  description := usualDescription
  systemMessage := some usualSystemMessage
  tools := []
  handoffs := []
  memory := []
  context := .unbounded
  reflects := false
  template := usualTemplate

/-- The agent, for a client with these capabilities. -/
def build (b : Blueprint) (c : Capabilities) : Except ConfigurationError Agent :=
  if !b.tools.isEmpty && !c.functionCalling then .error .toolsUnsupported
  else if !b.handoffs.isEmpty && !c.functionCalling then .error .handoffsUnsupported
  else
    match Registry.build b.tools b.handoffs with
    | .error clash => .error (.names clash)
    | .ok registry => .ok {
        name := b.name
        description := b.description
        registry := registry
        memory := b.memory
        systemMessage := b.systemMessage
        reflects := b.reflects
        template := b.template
        opening := b.context }

end Blueprint
end ToolAgent
