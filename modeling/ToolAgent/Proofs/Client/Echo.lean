/-
The parrot gives a text back as it was.

On its way the text is stored, seen by the parrot at the end of its window, written into the
arguments of a call, read from there by `echo`, and put in place of `{result}`; or the parrot,
asked again, puts it into words. At no stage does it matter what is in the text.
-/
import ToolAgent.Session
import ToolAgent.Proofs.Client.Parrot
import ToolAgent.Proofs.Summary

namespace ToolAgent

/-- The usual template gives a result as it is. -/
theorem Summary.renderAll_usualTemplate (call : ToolCall) (result : ToolResult) :
    renderAll Blueprint.usualTemplate [call] [result] = result.content := by
  have hslot : Blueprint.usualTemplate.toList = [Segment.slot .result].flatMap Segment.written := by decide
  have hfilled : fillIn call result Blueprint.usualTemplate.toList = result.content.toList := by
    rw [hslot, Segment.fillIn_flatMap]
    exact List.append_nil _
  simp [renderAll, render, hfilled]

namespace Parrot

variable {a : Agent} {id text : String} {heard : Context}

/-- Nothing is lost in a summary. -/
theorem course_outcome_summary (hr : a.reflects = false) (ht : a.template = Blueprint.usualTemplate) :
    (course a id text heard).outcome a = .ok (.toolCallSummary text a.name) := by
  have hsummary : Summary.renderAll a.template (round a id text heard).calls (round a id text heard).results = text := by
    rw [ht]
    exact Summary.renderAll_usualTemplate _ _
  rw [course_summarised hr, Course.outcome, hsummary]

/-- Asked again, the parrot sees what `echo` gave back, unless its window is one message wide. -/
theorem course_outcome_words (hr : a.reflects = true) (hb : heard.bufferSize? ≠ some 1) :
    (course a id text heard).outcome a = .ok (.text (speak text) a.name (some .none)) := by
  have hlast : (heard.addAll (a.exchange (round a id text heard))).visible.getLast? =
      some (.toolResults [⟨id, text, false⟩]) := by
    have hwindow : (heard.addAll (a.exchange (round a id text heard))).bufferSize? ≠ some 1 := hb
    rw [Context.visible_getLast? hwindow (by simp [Agent.exchange])]
    simp [Agent.exchange, round]
  have hreply : reply (a.systemMessages ++ (heard.addAll (a.exchange (round a id text heard))).visible) =
      (speak text, .none) := by
    simp [reply, List.getLast?_append, hlast]
  rw [course_reflected hr, hreply]
  rfl

end Parrot

namespace Agent

variable {a : Agent}

/-- **A text comes back as it was.** With `echo` among the tools and without memory, a turn with the
parrot on a text ends with the text as the summary of its one call; or, if the agent reflects and
its window is not just one message wide, with the text in the parrot's words. -/
theorem turn_echoes (he : Tool.echo ∈ a.registry.tools) (hm : a.memory = [])
    (ht : a.template = Blueprint.usualTemplate) (s : Session Nat) (now : Nat) (idOf : Nat → String)
    (text source : String) (usage : Option Usage) :
    let ended := s.turn a (Parrot.client idOf) now [.text text source usage] .never
    (a.reflects = false → ended.1 = .ok ⟨.toolCallSummary text a.name, ended.2.events⟩) ∧
    (a.reflects = true → s.context.bufferSize? ≠ some 1 →
      ended.1 = .ok ⟨.text ("Echo from Mock: " ++ text) a.name (some .none), ended.2.events⟩) := by
  intro ended
  let heard := s.context.add (.user (.text text) source)
  have hended : ended.1 = .of ((Parrot.course a (idOf s.client) text heard).outcome a) ended.2.events :=
    (turn_parrot (t := .start s.context s.client (Token.never.clock now)) idOf he hm rfl text source usage).1
  refine ⟨fun hr => ?_, fun hr hb => ?_⟩
  · rw [hended, Parrot.course_outcome_summary hr ht]
    rfl
  · have hwindow : heard.bufferSize? ≠ some 1 := hb
    rw [hended, Parrot.course_outcome_words hr hwindow]
    rfl

/-- Quotes, braces, what looks like a placeholder, a control character and one beyond the first plane. -/
theorem parroting_echoes :
    let text := "\x7bresult\x7d \"\\\u0001\" 🦜"
    let a (reflects : Bool) : Agent :=
      { forecaster with memory := [], registry := ⟨[.echo], [], by decide⟩, reflects := reflects }
    let s : Session Nat := ⟨.buffered 2, 0⟩
    (∃ events, (s.turn (a false) (Parrot.client toString) 0 [.text text "user" none] .never).1 =
      .ok ⟨.toolCallSummary text "forecaster", events⟩) ∧
    ∃ events, (s.turn (a true) (Parrot.client toString) 0 [.text text "user" none] .never).1 =
      .ok ⟨.text ("Echo from Mock: " ++ text) "forecaster" (some .none), events⟩ := by
  intro text a s
  have hecho reflects : Tool.echo ∈ (a reflects).registry.tools := List.mem_singleton_self _
  have hsummary := (turn_echoes (hecho false) rfl rfl s 0 toString text "user" none).1 rfl
  have hwords := (turn_echoes (hecho true) rfl rfl s 0 toString text "user" none).2 rfl (by decide)
  exact ⟨⟨_, hsummary⟩, ⟨_, hwords⟩⟩

end Agent
end ToolAgent
