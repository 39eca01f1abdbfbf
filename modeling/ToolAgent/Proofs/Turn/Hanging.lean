/-
Turns that never end.

A turn hangs if its first reply asks for calls whose batch never ends (`Agent.Hangs`), and for no
other reason: `Agent.Traces` says what a turn at each stage owes to its past, and every step keeps
that (`step_traces`). A turn that is stuck hangs, and one that has ended does not; and a turn comes to
either (`moment_ended_or_stuck`).
-/
import ToolAgent.Proofs.Batch.Alone
import ToolAgent.Proofs.Turn.Moments

namespace ToolAgent

variable {σ : Type}

namespace Agent

/-- The first reply in a turn asks for calls, and their batch is to start at a clock. -/
def Wants (a : Agent) (client : Client σ) (inputs : List ChatMessage) (t : Turn σ) (calls : List ToolCall)
    (clock : Clock) : Prop :=
  ∃ (t₁ : Turn σ) (usage : Usage) (state : σ), client.capabilities.Sees inputs ∧
    a.augment a.memory (t.given inputs) = (.ok (), t₁) ∧ t₁.clock.isCancelled = false ∧ calls ≠ [] ∧
    client.create t₁.client (a.request a.registry.offers t₁) t₁.clock =
      (.result ⟨.toolCalls calls, usage⟩, state, clock)

/-- A turn never ends: the first reply asks for calls, and their batch has no report. -/
def Hangs (a : Agent) (client : Client σ) (inputs : List ChatMessage) (t : Turn σ) : Prop :=
  ∃ calls clock, a.Wants client inputs t calls clock ∧ a.registry.execute? clock calls = none

variable {a : Agent} {client : Client σ} {inputs : List ChatMessage} {t t₁ t₂ : Turn σ} {calls calls' : List ToolCall}
  {clock clock' : Clock} {r : Except Stop Inference}

theorem Wants.unique (h : a.Wants client inputs t calls clock) (h' : a.Wants client inputs t calls' clock') :
    calls = calls' ∧ clock = clock' := by
  obtain ⟨t₁, usage, state, -, hm, -, -, hr⟩ := h
  obtain ⟨t₁', usage', state', -, hm', -, -, hr'⟩ := h'
  obtain rfl : t₁ = t₁' := (Prod.mk.inj (hm.symm.trans hm')).2
  cases hr.symm.trans hr'
  exact ⟨rfl, rfl⟩

theorem Wants.hangs_iff (h : a.Wants client inputs t calls clock) :
    a.Hangs client inputs t ↔ a.registry.execute? clock calls = none := by
  refine ⟨?_, fun he => ⟨calls, clock, h, he⟩⟩
  rintro ⟨calls', clock', h', he⟩
  obtain ⟨rfl, rfl⟩ := h.unique h'
  exact he

/-- What the first inference gives, if the reply asks for calls. -/
theorem Wants.asks (h : a.Wants client inputs t calls clock) (hm : a.augment a.memory (t.given inputs) = (.ok (), t₁))
    (ha : a.Asks client a.registry.offers t₁ (r, t₂)) : ∃ usage, r = .ok ⟨.toolCalls calls, usage⟩ := by
  obtain ⟨t₁', usage, state, -, hm', hc, hne, hr⟩ := h
  obtain rfl : t₁ = t₁' := (Prod.mk.inj (hm.symm.trans hm')).2
  have hreply : (Reply.result ⟨.toolCalls calls, usage⟩).accepted = .ok ⟨.toolCalls calls, usage⟩ := by
    cases calls with
    | nil => exact absurd rfl hne
    | cons => rfl
  cases ha with
  | cancelled hc' => rw [hc] at hc'; cases hc'
  | refused _ hr' hstop =>
    cases hr.symm.trans hr'
    rw [hreply] at hstop
    cases hstop
  | accepted _ hr' hok =>
    cases hr.symm.trans hr'
    exact ⟨usage, hok.symm.trans hreply⟩

theorem Asks.wants {usage : Usage} (ha : a.Asks client a.registry.offers t₁ (.ok ⟨.toolCalls calls, usage⟩, t₂))
    (hs : client.capabilities.Sees inputs) (hm : a.augment a.memory (t.given inputs) = (.ok (), t₁)) :
    a.Wants client inputs t calls t₂.clock := by
  cases ha with
  | accepted hc hr hok =>
    cases Reply.accepted_ok hok
    exact ⟨t₁, usage, _, hs, hm, hc, Reply.accepted_nonempty hok, hr⟩

/-- Nothing hangs as long as no tool waits for a cancellation. -/
theorem not_hangs (h : ∀ tool ∈ a.registry.all, ∀ args, (tool.body args).awaits = false) :
    ¬ a.Hangs client inputs t := by
  rintro ⟨calls, clock, -, he⟩
  have hs : Batch.isSettled (a.registry.ended clock calls).calls = true := by
    refine Registry.ended_settled (.inr (.inr fun c _ body hb => ?_))
    obtain ⟨tool, htool, args, rfl⟩ := Registry.admit_ok hb
    exact h tool htool args
  cases he.symm.trans (Registry.execute?_eq_some.2 ⟨hs, rfl⟩)

/-! ## What a stage owes to the past -/

/-- What is true of a turn that has come to a stage. -/
def Traces (a : Agent) (client : Client σ) (inputs : List ChatMessage) (t t' : Turn σ) : Stage → Prop
  | .arriving inputs' => inputs' = inputs ∧ t' = t
  | .recalling ps => client.capabilities.Sees inputs ∧ a.augment ps t' = a.augment a.memory (t.given inputs)
  | .asking => client.capabilities.Sees inputs ∧ a.augment a.memory (t.given inputs) = (.ok (), t')
  | .calling calls _ => a.Wants client inputs t calls t'.clock
  | .executing calls effort => ∃ clock, a.Wants client inputs t calls clock ∧
      effort.rounds a.registry = a.registry.allRounds clock calls
  | .concluding .. | .reflecting | .ended _ => ¬ a.Hangs client inputs t

/-- What every step keeps. -/
theorem step_traces {stage : Stage} {t' : Turn σ} (h : a.Traces client inputs t t' stage) :
    a.Traces client inputs t (a.step client t' stage).2 (a.step client t' stage).1 := by
  cases stage with
  | arriving inputs' =>
    obtain ⟨rfl, rfl⟩ := h
    simp only [step]
    rcases takeIn_eq client.capabilities inputs' t' with ⟨hs, ht⟩ | ⟨hs, ht⟩
    · rw [ht]
      rintro ⟨_, _, ⟨_, _, _, hs', -⟩, -⟩
      exact hs hs'
    · rw [ht]
      exact ⟨hs, rfl⟩
  | recalling ps =>
    obtain ⟨hs, hm⟩ := h
    cases ps with
    | nil => exact ⟨hs, hm.symm⟩
    | cons p ps =>
      rw [a.augment_cons] at hm
      rcases ha : a.augment [p] t' with ⟨stop | ⟨⟩, t''⟩
      · simp only [ha] at hm
        simp only [step, ha]
        rintro ⟨_, _, ⟨_, _, _, -, hm', -⟩, -⟩
        cases hm.trans hm'
      · simp only [ha] at hm
        simp only [step, ha]
        exact ⟨hs, hm⟩
  | asking =>
    obtain ⟨hs, hm⟩ := h
    have ha := a.ask_asks client a.registry.offers t'
    rcases he : a.ask client a.registry.offers t' with ⟨stop | ⟨text | calls, usage⟩, t''⟩
    · rw [he] at ha
      simp only [step, he]
      rintro ⟨_, _, hw, -⟩
      obtain ⟨usage, hr⟩ := hw.asks hm ha
      cases hr
    · rw [he] at ha
      simp only [step, he]
      rintro ⟨_, _, hw, -⟩
      obtain ⟨usage, hr⟩ := hw.asks hm ha
      cases hr
    · rw [he] at ha
      simp only [step, he]
      exact ha.wants hs hm
  | calling calls usage => exact ⟨t'.clock, h, Effort.start_rounds ..⟩
  | executing calls effort =>
    obtain ⟨clock, hw, hr⟩ := h
    simp only [step]
    split
    next hb =>
      split
      next report hreport =>
        rw [Effort.rounds_over hb] at hr
        have he : a.registry.execute? clock calls = some report := by
          rw [Registry.execute?, ← hr]
          exact hreport
        show ¬ a.Hangs client inputs t
        rw [hw.hangs_iff, he]
        simp
      next => exact ⟨clock, hw, hr⟩
    next => exact ⟨clock, hw, (Effort.step_rounds a.registry effort).trans hr⟩
  | concluding calls results =>
    simp only [step]
    split <;> exact h
  | reflecting | ended => exact h

theorem moment_traces (a : Agent) (client : Client σ) (inputs : List ChatMessage) (t : Turn σ) (n : Nat) :
    a.Traces client inputs t (a.moment client inputs t n).2 (a.moment client inputs t n).1 := by
  induction n with
  | zero => exact ⟨rfl, rfl⟩
  | succ n ih => exact step_traces ih

/-! ## The end -/

/-- A turn is stuck with a batch that never ends, as it stands when there are no more rounds. -/
theorem Traces.stuck {t' : Turn σ} {effort : Effort} (h : a.Traces client inputs t t' (.executing calls effort))
    (hs : (Stage.executing calls effort).Stuck) :
    ∃ clock, a.Wants client inputs t calls clock ∧ a.registry.execute? clock calls = none ∧
      a.registry.ended clock calls = ⟨effort.calls, effort.clock⟩ := by
  obtain ⟨clock, hw, hr⟩ := h
  obtain ⟨hb, hreport⟩ := hs
  rw [Effort.rounds_over hb] at hr
  refine ⟨clock, hw, ?_, ?_⟩
  · rw [Registry.execute?, ← hr]
    exact hreport
  · rw [Registry.ended, ← hr]

theorem Traces.hangs {t' : Turn σ} {stage : Stage} (h : a.Traces client inputs t t' stage) (hs : stage.Stuck) :
    a.Hangs client inputs t := by
  cases stage with
  | executing calls effort =>
    obtain ⟨clock, hw, he, -⟩ := h.stuck hs
    exact ⟨calls, clock, hw, he⟩
  | _ => exact hs.elim

/-- **A turn comes to its end, or it hangs**, and stays there. -/
theorem moment_ended_or_stuck (a : Agent) (client : Client σ) (inputs : List ChatMessage) (t : Turn σ) :
    ∃ n, ∀ m, n ≤ m →
      ¬ a.Hangs client inputs t ∧
        a.moment client inputs t m = (.ended (a.turn client inputs t).1, (a.turn client inputs t).2) ∨
      a.Hangs client inputs t ∧ (a.moment client inputs t m).1.Stuck := by
  obtain ⟨n, hn | hn⟩ := a.moment_end client inputs t
  · refine ⟨n, fun m hm => .inl ⟨?_, hn m hm⟩⟩
    have ht := a.moment_traces client inputs t m
    rwa [hn m hm] at ht
  · exact ⟨n, fun m hm => .inr ⟨(a.moment_traces client inputs t m).hangs (hn m hm), hn m hm⟩⟩

end Agent
end ToolAgent
