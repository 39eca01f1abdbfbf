/-
The kinds of chat message an agent is said to produce, and those it does.

A turn ends with text, a handoff or a summary. Text is always announced, and a handoff is only
found where one is registered. A summary, though, comes of any calls that name no handoff, if
the agent does not reflect, and is announced only if there are tools besides the handoffs: so
without them a model that asks for calls all the same gets a turn to end with a kind that is
not announced (`run_kinds`).
-/
import ToolAgent.Proofs.Turn
import ToolAgent.Proofs.Conversation

namespace ToolAgent

variable {σ : Type}

theorem Registry.hasHandoffs_of_handoffsIn {r : Registry} {calls : List ToolCall} {h : Handoff}
    {more : List Handoff} (hh : r.handoffsIn calls = h :: more) : r.hasHandoffs = true := by
  have hm : h ∈ r.handoffsIn calls := by simp [hh]
  obtain ⟨c, -, hc⟩ := List.mem_filterMap.1 hm
  have hne : r.handoffs ≠ [] := List.ne_nil_of_mem (List.mem_of_find?_eq_some hc)
  simpa [hasHandoffs] using hne

namespace Agent

variable {a : Agent} {client : Client σ} {t t' : Turn σ} {k : Course}

@[simp] theorem mem_kinds {kind : ChatMessage.Kind} : kind ∈ a.kinds ↔
    kind = .text ∨ (a.registry.hasHandoffs = true ∧ kind = .handoff) ∨
      (a.registry.hasTools = true ∧ kind = .toolCallSummary) := by
  unfold kinds
  cases a.registry.hasHandoffs <;> cases a.registry.hasTools <;> simp

/-- The client asks a turn for calls that name no handoff. -/
def AsksInVain (a : Agent) (t : Turn σ) : Prop :=
  ∃ q ∈ t.inquiries, ∃ calls usage, q.reply = .result ⟨.toolCalls calls, usage⟩ ∧
    a.registry.handoffsIn calls = []

/-- A course that ends with a chat message ends with a kind that is not announced only if the
model asks a toolless agent for calls and gets their summary. -/
theorem Takes.kind {m : ChatMessage} (h : a.Takes client t k t') (ht : t.inquiries = [])
    (hm : k.outcome a = .ok m) :
    m.kind ∉ a.kinds ↔ a.registry.hasTools = false ∧ a.reflects = false ∧ a.AsksInVain t' := by
  cases h with
  | unanswered | unreflected | overreached => cases hm
  | told ha =>
    cases hm
    obtain ⟨q, hq, -, -, hr⟩ := ha.inquiries_ok
    refine ⟨fun hk => absurd (by simp [textReply, ChatMessage.kind]) hk, ?_⟩
    rintro ⟨-, -, q', hq', calls, usage, hr', -⟩
    obtain rfl : q' = q := by simpa [hq, ht] using hq'
    rw [Reply.accepted_ok hr] at hr'
    cases hr'
  | handedOver hb hh =>
    cases hm
    obtain ⟨q, hq, -, -, hr⟩ := hb.inquiries
    refine ⟨fun hk => absurd (by simp [ChatMessage.kind, Registry.hasHandoffs_of_handoffsIn hh]) hk, ?_⟩
    rintro ⟨-, -, q', hq', calls, usage, hr', hnone⟩
    obtain rfl : q' = q := by simpa [noteHandoffs_inquiries, hq, ht] using hq'
    rw [Reply.accepted_ok hr] at hr'
    cases hr'
    rw [hh] at hnone
    cases hnone
  | summarised hb hh hr =>
    cases hm
    obtain ⟨q, hq, -, -, ha⟩ := hb.inquiries
    have hvain : a.AsksInVain t' := ⟨q, by simp [hq], _, _, Reply.accepted_ok ha, hh⟩
    simp [ChatMessage.kind, hr, hvain]
  | reflected hb hh hr ha =>
    cases hm
    simp [textReply, ChatMessage.kind, hr]

/-- The same of a whole turn. -/
theorem turn_kind {inputs : List ChatMessage} {response : Response} (ht : t.inquiries = [])
    (h : (a.turn client inputs t).1 = .ok response) :
    response.chatMessage.kind ∉ a.kinds ↔
      a.registry.hasTools = false ∧ a.reflects = false ∧ a.AsksInVain (a.turn client inputs t).2 := by
  rcases (a.turn_goes client inputs t).course ht with ⟨stop, -, he, -⟩ | ⟨t₁, k, hnone, -, hk, he⟩
  · rw [he] at h
    cases h
  · rw [he] at h
    cases ho : k.outcome a with
    | error stop => rw [ho] at h; cases h
    | ok m =>
      rw [ho] at h
      cases h
      exact hk.kind hnone ho

end Agent

namespace Conversation

variable {a : Agent} {client : Client σ}

/-- The log holds turns of the agent, each with memory as it was then. -/
def LogsTurns (a : Agent) (client : Client σ) (c : Conversation σ) : Prop :=
  ∀ e, .turn e ∈ c.log → ∃ (s : Session σ) (memory : List Provider) (now : Nat)
    (inputs : List ChatMessage) (token : Token),
      e = s.turn { a with memory := memory } client now inputs token

theorem LogsTurns.perform {c : Conversation σ} (h : LogsTurns a client c) (o : Operation) :
    LogsTurns a client (c.perform a client o) := by
  cases o with
  | turns memory now turns =>
    refine turns_induct (fun c now inputs token hc e he => ?_) h
    rcases List.mem_cons.1 he with he | he
    · cases he
      exact ⟨c.session, memory, now, inputs, token, rfl⟩
    · exact hc e he
  | reset =>
    intro e he
    rcases List.mem_cons.1 he with he | he
    · cases he
    · exact h e he
  | save | load => exact h
  | restore | loadJson =>
    simp only [Conversation.perform]
    split <;> exact h

theorem LogsTurns.run : ∀ {ops : List Operation} {c : Conversation σ}, LogsTurns a client c →
    LogsTurns a client (c.run a client ops)
  | [], _, h => h
  | o :: ops, c, h =>
    show LogsTurns a client ((c.perform a client o).run a client ops) from LogsTurns.run (h.perform o)

/-- **The kinds of responses in a run.** Whatever is done to an agent, a response is of a kind that
the agent is said to produce, except in one case: the agent has no tools besides handoffs and
does not reflect, and the model has asked for calls none of which names a handoff. -/
theorem run_kinds (a : Agent) (client : Client σ) (s : Session σ) (ops : List Operation) :
    ∀ e, .turn e ∈ (run a client ops ⟨s, [], []⟩).log → ∀ response, e.1 = .ok response →
      (response.chatMessage.kind ∉ a.kinds ↔
        a.registry.hasTools = false ∧ a.reflects = false ∧ a.AsksInVain e.2) := by
  intro e he response hr
  have hlog : LogsTurns a client (⟨s, [], []⟩ : Conversation σ) := fun e he => nomatch he
  obtain ⟨s, memory, now, inputs, token, rfl⟩ := hlog.run e he
  exact Agent.turn_kind (a := { a with memory := memory }) rfl hr

end Conversation

/-- An agent without tools. -/
def Agent.toolless : Agent where
  name := "toolless"
  description := "Has no tools."
  registry := .empty
  memory := []
  systemMessage := none
  reflects := false
  template := Blueprint.usualTemplate
  opening := .unbounded

namespace Conversation

/-- Asked for a tool all the same, it ends its turn with a summary, which it is not said to. -/
theorem toolless_kind :
    let ops : List Operation := [.turns [] 0 [([.text "Weather?" "user" none], .never)]]
    ∃ e response, .turn e ∈ ((start .all Replay.forecast).run .toolless (Replay.client .usual) ops).log ∧
      e.1 = .ok response ∧ response.chatMessage.kind ∉ Agent.kinds .toolless := by
  have hk : ChatMessage.Kind.toolCallSummary ∉ Agent.kinds .toolless := by decide
  exact ⟨_, _, .head _, rfl, hk⟩

theorem toolless_asksInVain :
    let ops : List Operation := [.turns [] 0 [([.text "Weather?" "user" none], .never)]]
    ∃ e response, .turn e ∈ ((start .all Replay.forecast).run .toolless (Replay.client .usual) ops).log ∧
      e.1 = .ok response ∧ response.chatMessage.kind = .toolCallSummary ∧ Agent.AsksInVain .toolless e.2 := by
  intro ops
  have hk : ChatMessage.Kind.toolCallSummary ∉ Agent.kinds .toolless := by decide
  refine ⟨_, _, .head _, rfl, rfl, ?_⟩
  exact ((run_kinds .toolless (Replay.client .usual) ⟨.unbounded, .forecast⟩ ops _ (.head _) _ rfl).1 hk).2.2

end Conversation
end ToolAgent
