/-
What a client is asked over whole runs: the system message, and then an end of what
is stored at that moment.

The end may start anywhere, so results may come first in it without their calls. They
are left out, and no others can be without calls, since what is stored is paired
(`Agent.turn_inquiries` for one turn, `Sound` from turn to turn).
-/
import ToolAgent.Proofs.Conversation.Answered

namespace ToolAgent

variable {σ : Type}

/-- An inquiry of an agent with a window: what it shows, and that the stored messages it was
made from are paired. -/
structure Agent.Asked (a : Agent) (window : Window) (q : Inquiry) : Prop where
  shows : a.Shows q
  paired : Paired q.context.messages
  framed : q.context.window = window

namespace Agent

variable {a : Agent} {client : Client σ} {t t' : Turn σ} {k : Course} {q : Inquiry} {window : Window}

theorem systemMessages_paired (a : Agent) : Paired a.systemMessages :=
  .of_notes (by cases hs : a.systemMessage <;> simp [systemMessages, hs, Message.isNote])

theorem Asked.of_memory {memory : List Provider} (h : Asked { a with memory := memory } window q) :
    a.Asked window q :=
  ⟨h.shows, h.paired, h.framed⟩

theorem Asked.request_paired (h : a.Asked window q) : Paired q.request.messages := by
  rw [h.shows]
  exact a.systemMessages_paired.append h.paired.visible

/-- From a paired context a course asks with paired contexts, each the start of what it leaves. -/
theorem Takes.asked (h : a.Takes client t k t') (hp : Paired t.context.messages) :
    ∃ qs, t'.inquiries = t.inquiries ++ qs ∧
      ∀ q ∈ qs, a.Asked t.context.window q ∧ q.context.messages <+: t'.context.messages := by
  obtain ⟨qs, he, hs, hc⟩ := h.inquiries
  refine ⟨qs, he, fun q hq => ?_⟩
  have hm := hc.subset (List.mem_map_of_mem hq)
  rw [h.context]
  rcases List.mem_cons.1 hm with hm | hm
  · refine ⟨⟨hs q hq, by rw [hm]; exact hp, by rw [hm]⟩, ?_⟩
    rw [hm]
    exact List.prefix_append _ _
  · -- The second inquiry: the context has grown by the exchange, which the course keeps.
    cases hk : k.round? with
    | none => simp [hk] at hm
    | some b =>
      obtain ⟨t₁, hb⟩ := h.batch hk
      have hm : q.context = t.context.addAll (a.exchange b) := by simpa [hk] using hm
      refine ⟨⟨hs q hq, by rw [hm]; exact hp.append hb.paired, by rw [hm]; rfl⟩, ?_⟩
      rw [hm]
      exact (List.prefix_append_right_inj _).2 (Course.exchange_prefix a hk)

/-- From a paired context a turn asks with paired contexts, each the start of what it leaves. -/
theorem turn_inquiries (a : Agent) (client : Client σ) (inputs : List ChatMessage) (t : Turn σ)
    (h : ∀ p ∈ a.memory, p.AddsNotes) (hp : Paired t.context.messages) :
    ∃ qs, (a.turn client inputs t).2.inquiries = t.inquiries ++ qs ∧
      ∀ q ∈ qs, a.Asked t.context.window q ∧
        q.context.messages <+: (a.turn client inputs t).2.context.messages := by
  obtain ⟨notes, hn, hc⟩ := a.given_notes inputs t h
  have hi := a.augment_inquiries a.memory (t.given inputs)
  have hg := a.turn_goes client inputs t
  generalize a.turn client inputs t = ended at hg ⊢
  cases hg with
  | refused _ => exact ⟨[], by simp⟩
  | forgot _ hm =>
    rw [hm] at hi
    exact ⟨[], hi.trans (List.append_nil _).symm, by simp⟩
  | @answered t₁ _ _ _ hm hk =>
    rw [hm] at hi hc
    have hp₁ : Paired t₁.context.messages := by
      rw [hc]
      exact hp.append (.of_notes hn)
    obtain ⟨qs, hq, ha⟩ := hk.asked hp₁
    rw [hc] at ha
    exact ⟨qs, hq.trans (by rw [hi]; rfl), ha⟩

end Agent

namespace Conversation

variable {a : Agent} {client : Client σ} {window : Window}

/-- The invariant of runs, with all inquiries so far. -/
structure Traced (a : Agent) (window : Window) (c : Conversation σ) : Prop where
  sound : c.Sound
  framed : c.context.window = window
  asked : ∀ e, .turn e ∈ c.log → ∀ q ∈ e.2.inquiries,
    a.Asked window q ∧ q.context.messages <+: e.2.context.messages

theorem Traced.afterTurn {c : Conversation σ} {memory : List Provider} (hc : c.Traced a window) (now : Nat)
    (inputs : List ChatMessage) (token : Token) (hm : ∀ p ∈ memory, p.AddsNotes) :
    (c.afterTurn (c.session.turn { a with memory := memory } client now inputs token)).Traced a window := by
  obtain ⟨added, he, -⟩ := turn_context a client c now inputs token hm
  obtain ⟨qs, hq, ha⟩ := Agent.turn_inquiries { a with memory := memory } client inputs
    (.start c.session.context c.session.client (token.clock now)) hm hc.sound.stored.paired
  refine ⟨hc.sound.afterTurn now inputs token hm, (congrArg Context.window he).trans hc.framed, ?_⟩
  intro e hlog q hqe
  rcases List.mem_cons.1 hlog with hlog | hlog
  · cases hlog
    rw [Session.turn, hq] at hqe
    obtain ⟨hasked, hpre⟩ := ha q hqe
    have hw : c.session.context.window = window := hc.framed
    exact ⟨(hw ▸ hasked).of_memory, hpre⟩
  · exact hc.asked e hlog q hqe

theorem Traced.start (a : Agent) (window : Window) (state : σ) : (start window state).Traced a window :=
  ⟨.start window state, rfl, by simp [Conversation.start]⟩

theorem run_traced {ops : List Operation} {c : Conversation σ}
    (hops : ∀ o ∈ ops, o.AddsNotes ∧ o.isForeign = false) (hc : c.Traced a window) :
    (c.run a client ops).Traced a window := by
  refine run_induct hops ?_ ?_ ?_ ?_ hc
  · intro c memory now inputs token hm h
    exact h.afterTurn now inputs token hm
  · intro c _ h
    refine ⟨h.sound.afterReset, h.framed, fun e he => ?_⟩
    rcases List.mem_cons.1 he with he | he
    · cases he
    · exact h.asked e he
  · intro c h
    exact ⟨h.sound.afterSave, h.framed, h.asked⟩
  · intro c s hs _ h
    exact ⟨h.sound.restore hs, h.framed, h.asked⟩

/-- **Requests in a run.** Whatever turns, resets, savings and loadings of own states have been,
every request is the system message, if there is one, and an end of what was stored when it was
made: all of it without a window, else no more messages than the window is wide, and no fewer
but for results that would come first. In it results stand right behind the calls they answer. -/
theorem run_requests (a : Agent) (client : Client σ) (window : Window) (state : σ)
    (ops : List Operation) (hops : ∀ o ∈ ops, o.AddsNotes ∧ o.isForeign = false) :
    ∀ e, .turn e ∈ ((start window state).run a client ops).log → ∀ q ∈ e.2.inquiries,
      q.context.messages <+: e.2.context.messages ∧
      (∃ shown, q.request.messages = (a.systemMessage.map .system).toList ++ shown ∧
        shown <:+ q.context.messages ∧ (window = .all → shown = q.context.messages) ∧
        ∀ size pos, window = .last size pos → shown.length ≤ size ∧
          let spanned := q.context.messages.drop (q.context.messages.length - size)
          spanned = shown ∨ ∃ results, spanned = .toolResults results :: shown) ∧
      ∀ l results r, q.request.messages = l ++ .toolResults results :: r →
        ∃ l' calls source usage, l = l' ++ [.assistant (.toolCalls calls) source usage] ∧
          results.map (·.callId) = calls.map (·.id) := by
  intro e he q hq
  obtain ⟨hask, hpre⟩ := (run_traced hops (.start a window state)).asked e he q hq
  refine ⟨hpre, ⟨q.context.visible, hask.shows, q.context.visible_suffix, ?_, ?_⟩, ?_⟩
  · intro hw
    exact Context.visible_unbounded (by rw [Context.bufferSize?, hask.framed, hw])
  · intro size pos hw
    have hframed : q.context.window = .last size pos := hask.framed.trans hw
    exact ⟨Context.visible_length (by rw [Context.bufferSize?, hframed]), Context.visible_buffered hframed⟩
  · intro l results r hm
    have hp := hask.request_paired
    rw [hm] at hp
    exact hp.behind_calls

theorem forecaster_requests :
    let ops : List Operation :=
      [.turns Agent.forecaster.memory 0 [([.text "Weather?" "user" none], .never)], .save, .reset, .restore 0]
    (∀ o ∈ ops, o.AddsNotes ∧ o.isForeign = false) ∧
    ∀ e, .turn e ∈ ((start (.last 2 (by decide)) Replay.forecast).run .forecaster (Replay.client .usual) ops).log →
      ∀ q ∈ e.2.inquiries, ∃ shown, q.request.messages = .system "Be brief." :: shown ∧ shown.length ≤ 2 := by
  intro ops
  have hops : ∀ o ∈ ops, o.AddsNotes ∧ o.isForeign = false := by
    simpa [ops, Operation.AddsNotes, Operation.isForeign] using Agent.forecaster_addsNotes
  refine ⟨hops, fun e he q hq => ?_⟩
  obtain ⟨-, ⟨shown, hm, -, -, hl⟩, -⟩ := run_requests .forecaster (Replay.client .usual)
    (.last 2 (by decide)) .forecast ops hops e he q hq
  exact ⟨shown, hm, (hl 2 _ rfl).1⟩

end Conversation
end ToolAgent
