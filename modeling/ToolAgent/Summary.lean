/-
Templates for summaries of tool calls.

A template is gone through once, from left to right. Doubled braces stand for
single ones, and a placeholder for the tool's name, its arguments or its result; a
placeholder that is not known, and a brace without a partner, stand for
themselves. What is put in is never looked at again.
-/
import ToolAgent.Message

namespace ToolAgent

namespace Summary

inductive Slot where
  | toolName
  | arguments
  | result
  deriving DecidableEq, Repr

namespace Slot

/-- What a placeholder for the slot has between its braces. -/
def name : Slot → String
  | .toolName => "tool_name"
  | .arguments => "arguments"
  | .result => "result"

def named? (key : List Char) : Option Slot :=
  [toolName, arguments, result].find? (·.name.toList = key)

def value (call : ToolCall) (result : ToolResult) : Slot → List Char
  | .toolName => call.name.toList
  | .arguments => call.arguments.toList
  | .result => result.content.toList

end Slot

def isBrace (c : Char) : Bool := c = '\x7b' || c = '\x7d'

def braced (key : List Char) : List Char := '\x7b' :: key ++ ['\x7d']

/-- What stands before the first closing brace, and what after it. -/
def upToClose : List Char → Option (List Char × List Char)
  | [] => none
  | c :: cs =>
    if c = '\x7d' then some ([], cs)
    else
      match upToClose cs with
      | none => none
      | some (key, rest) => some (c :: key, rest)

theorem upToClose_eq {cs key rest : List Char} (h : upToClose cs = some (key, rest)) :
    cs = key ++ '\x7d' :: rest := by
  induction cs generalizing key with
  | nil => simp [upToClose] at h
  | cons c cs ih =>
    rw [upToClose] at h
    split at h
    next hc =>
      cases h
      rw [hc]
      rfl
    next =>
      cases hcs : upToClose cs with
      | none => simp [hcs] at h
      | some found =>
        obtain ⟨key', rest'⟩ := found
        simp only [hcs, Option.some.injEq, Prod.mk.injEq] at h
        obtain ⟨rfl, rfl⟩ := h
        rw [ih hcs]
        rfl

/-- A placeholder may start at an opening brace, and ends at the next closing one. -/
def placeholder? (brace : Char) (behind : List Char) : Option (List Char × List Char) :=
  if brace = '\x7b' then upToClose behind else none

theorem placeholder?_eq {brace : Char} {behind key rest : List Char} (h : placeholder? brace behind = some (key, rest)) :
    brace :: behind = braced key ++ rest := by
  unfold placeholder? at h
  split at h
  next hb => rw [hb, upToClose_eq h, braced]; simp
  next => cases h

theorem placeholder?_length {brace : Char} {behind key rest : List Char}
    (h : placeholder? brace behind = some (key, rest)) : rest.length < behind.length := by
  have hlength := congrArg List.length (placeholder?_eq h)
  simp only [braced, List.length_cons, List.length_append, List.length_nil] at hlength
  omega

/-- What a placeholder stands for. -/
def valueOf (call : ToolCall) (result : ToolResult) (key : List Char) : List Char :=
  match Slot.named? key with
  | some slot => slot.value call result
  | none => braced key

/-- Fills in a template, from one brace to the next. -/
def fillIn (call : ToolCall) (result : ToolResult) (template : List Char) : List Char :=
  template.takeWhile (!isBrace ·) ++
    match hd : template.dropWhile (!isBrace ·) with
    | [] => []
    | brace :: behind =>
      have hlt : behind.length < template.length := by
        have hle := (List.dropWhile_suffix (l := template) (!isBrace ·)).length_le
        rw [hd, List.length_cons] at hle
        exact hle
      if behind.head? = some brace then brace :: fillIn call result behind.tail
      else
        match hp : placeholder? brace behind with
        | some (key, rest) =>
          have hrest := placeholder?_length hp
          valueOf call result key ++ fillIn call result rest
        | none => brace :: fillIn call result behind
termination_by template.length
decreasing_by
  · rw [List.length_tail]; omega
  · omega
  · omega

/-- A template filled in for one call. -/
def render (template : String) (call : ToolCall) (result : ToolResult) : String :=
  String.ofList (fillIn call result template.toList)

/-- A template filled in for every call of a batch, a piece each. -/
def renderAll (template : String) (calls : List ToolCall) (results : List ToolResult) : String :=
  "\n".intercalate ((calls.zip results).map fun (call, result) => render template call result)

end Summary
end ToolAgent
