/-
Handoffs. A handoff passes control to another agent; the model asks for it by
calling a tool of the handoff's name, which answers with the handoff's message.
-/
import ToolAgent.Tool

namespace ToolAgent

structure Handoff where
  target : String
  name : String
  description : String
  message : String
  deriving DecidableEq, Repr, Inhabited

namespace Handoff

/-- A handoff with everything named after its target. -/
def forTarget (target : String) : Handoff where
  target := target
  name := "transfer_to_" ++ target
  description := "Handoff to " ++ target ++ "."
  message := "Transferred to " ++ target ++ ", adopting the role of " ++ target ++ " immediately."

/-- The placeholder for the target in a message. -/
def placeholder : List Char := ['\x7b', 't', 'a', 'r', 'g', 'e', 't', '\x7d']

/-- Replaces the placeholder from left to right; `skip` characters belong to one
already replaced. -/
def substitute (target : List Char) (skip : Nat) : List Char → List Char
  | [] => []
  | c :: cs =>
    match skip with
    | n + 1 => substitute target n cs
    | 0 =>
      if placeholder.isPrefixOf (c :: cs) then target ++ substitute target (placeholder.length - 1) cs
      else c :: substitute target 0 cs

/-- Takes a message in which the target is left open. -/
def withMessage (h : Handoff) (template : String) : Handoff :=
  { h with message := String.ofList (substitute h.target.toList 0 template.toList) }

def tool (h : Handoff) : Tool where
  name := h.name
  description := h.description
  parameters := Tool.anyObject
  body _ := .finish (.value (.string h.message))

def toJson (h : Handoff) : Json :=
  .object [("target", .string h.target), ("name", .string h.name),
    ("description", .string h.description), ("message", .string h.message)]

def decoder : Json.Decoder Handoff :=
  Json.Decoder.record "Handoff" <|
    .required "target" .string <|
    .required "name" .string <|
    .required "description" .string <|
    .required "message" .string <|
    .done fun message description name target => ⟨target, name, description, message⟩

end Handoff
end ToolAgent
