/-
What a model sees when it is asked to reflect: the results of its tool calls come
last, unless the window is so narrow that they would stand in it without their
calls.
-/
import ToolAgent.Proofs.Turn
import ToolAgent.Proofs.Window

namespace ToolAgent.Agent

variable {σ : Type} {a : Agent} {client : Client σ} {t t₁ t' : Turn σ} {b : Round} {k : Course}

/-- The context with a batch behind it ends with the results, which are not its first message. -/
theorem Batches.ends (h : a.Batches client t b t₁) : ∃ ms m,
    t₁.context.messages = ms ++ [m] ++ [.toolResults b.results] := by
  refine ⟨t.context.messages, a.uttered (.toolCalls b.calls) b.usage, ?_⟩
  rw [h.context]
  simp [exchange]

theorem Batches.window (h : a.Batches client t b t₁) : t₁.context.bufferSize? = t.context.bufferSize? := by
  rw [h.context]
  rfl

theorem Batches.request_getLast? (h : a.Batches client t b t₁) (hb : t.context.bufferSize? ≠ some 1) :
    (a.request [] t₁).messages.getLast? = some (.toolResults b.results) := by
  obtain ⟨ms, m, he⟩ := h.ends
  have hv : t₁.context.visible.getLast? = some (.toolResults b.results) := by
    rw [Context.visible_getLast? (h.window ▸ hb) (by simp [he]), he]
    simp
  simp [request, List.getLast?_append, hv]

theorem Batches.request_blind (h : a.Batches client t b t₁) (hb : t.context.bufferSize? = some 1) :
    (a.request [] t₁).messages = a.systemMessages := by
  obtain ⟨ms, m, he⟩ := h.ends
  simp [request, Context.visible_nil (h.window.trans hb) he rfl]

/-- **What is reflected on.** When a turn asks its model a second time, the first reply asked for
tool calls, which were run, and no tools are on offer any more. The request ends with the
results of all the calls, unless the window is one message wide: results alone in it are
not shown, and there is nothing but the system message. -/
theorem turn_reflects (a : Agent) (client : Client σ) (inputs : List ChatMessage) (t : Turn σ)
    (q₁ q₂ : Inquiry)
    (h : (a.turn client inputs t).2.inquiries = t.inquiries ++ [q₁, q₂]) :
    ∃ b : Round, q₁.reply.accepted = .ok ⟨.toolCalls b.calls, b.usage⟩ ∧
      (∃ clock, b.results = (a.registry.execute clock b.calls).results) ∧
      .toolCallExecution b.results a.name ∈ (a.turn client inputs t).2.events ∧
      q₂.request.tools = [] ∧
      (t.context.bufferSize? ≠ some 1 →
        q₂.request.messages.getLast? = some (.toolResults b.results)) ∧
      (t.context.bufferSize? = some 1 → q₂.request.messages = a.systemMessages) := by
  have hg := a.turn_goes client inputs t
  generalize a.turn client inputs t = ended at h hg ⊢
  cases hg with
  | refused _ => simp at h
  | forgot _ hm =>
    have hi := a.augment_inquiries a.memory (t.given inputs)
    rw [hm, h] at hi
    simp [Turn.given] at hi
  | @answered t₁ k _ _ hm hk =>
    -- Memory asks nothing and keeps the window, so both inquiries are the course's.
    have hi := a.augment_inquiries a.memory (t.given inputs)
    have hw := a.augment_window a.memory (t.given inputs)
    rw [hm] at hi hw
    have hb : t₁.context.bufferSize? = t.context.bufferSize? := by
      unfold Context.bufferSize?
      rw [hw]
      rfl
    obtain ⟨b, t₂, hbat, hround, hr, hq⟩ := hk.second (h.trans (by rw [hi]; rfl))
    refine ⟨b, hr, hbat.results, ?_, by rw [hq]; rfl, fun hs => ?_, fun hs => ?_⟩
    · rw [hk.events]
      simp [Course.events, hround]
    · rw [hq]
      exact hbat.request_getLast? (hb ▸ hs)
    · rw [hq]
      exact hbat.request_blind (hb.trans hs)

theorem forecaster_reflects :
    ∃ q₁ q₂, (forecaster.turn (Replay.client .usual) [.text "Weather?" "user" none]
        (.start (.buffered 2) .forecast .start)).2.inquiries = [q₁, q₂] ∧
      ∃ results, q₂.request.messages.getLast? = some (.toolResults results) ∧
        .toolCallExecution results "forecaster" ∈
          (forecaster.turn (Replay.client .usual) [.text "Weather?" "user" none]
            (.start (.buffered 2) .forecast .start)).2.events := by
  refine ⟨_, _, rfl, ?_⟩
  obtain ⟨b, -, -, he, -, hl, -⟩ := turn_reflects forecaster (Replay.client .usual)
    [.text "Weather?" "user" none] (.start (.buffered 2) .forecast .start) _ _ rfl
  exact ⟨b.results, hl (by decide), he⟩

/-- Seen through a window of width one, the same turn asks with the system message alone. -/
theorem forecaster_blind :
    ∃ q₁ q₂, (forecaster.turn (Replay.client .usual) [.text "Weather?" "user" none]
        (.start (.buffered 1) .forecast .start)).2.inquiries = [q₁, q₂] ∧
      ∀ results, q₂.request.messages.getLast? ≠ some (.toolResults results) := by
  refine ⟨_, _, rfl, fun results h => ?_⟩
  cases h

end ToolAgent.Agent
