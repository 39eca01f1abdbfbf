/-
A turn whose token is cancelled, at whatever moment.

From a moment with a cancelled token no step asks the client, and the token stays
cancelled (`step_cancelled`, `moment_cancelled`). What is under way by then is still
brought to its end: a batch has its results stored, and only what would need another
inference is given up (`Takes.halted`).
-/
import ToolAgent.Proofs.Batch.Cancelled
import ToolAgent.Proofs.Outcome
import ToolAgent.Proofs.Turn.Breakdown
import ToolAgent.Proofs.Turn.Hanging

namespace ToolAgent

variable {σ : Type}

/-- The provider does not take a cancellation back. -/
def Provider.KeepsToken (p : Provider) : Prop :=
  ∀ c clock, clock.isCancelled = true → (p.update c clock).2.2.isCancelled = true

theorem Provider.scripted_keepsToken (name : String) (additions : List Message) (clears : Bool)
    (answer : Recall) : (scripted name additions clears answer).KeepsToken := fun _ _ hc => hc

theorem Notebook.provider_keepsToken (m : Notebook) : m.provider.KeepsToken := fun _ _ hc => hc

/-- The clock of a turn at a stage. A batch that is under way has its own. -/
def Stage.clock (t : Turn σ) : Stage → Clock
  | .executing _ effort => effort.clock
  | _ => t.clock

theorem Effort.step_cancelled (r : Registry) {e : Effort} (hc : e.clock.isCancelled = true) :
    (e.step r).clock.isCancelled = true := by
  obtain ⟨bound, clock, calls, rested, line, audits⟩ := e
  cases bound with
  | zero => exact hc
  | succ bound =>
    match hr : Batch.round r clock calls line with
    | (calls', clock', audits') =>
      have hc' : clock'.isCancelled = true := by
        have hround : clock' = clock ∨ clock' = clock.cancel := by
          simpa [hr] using Batch.round_clock r line clock calls
        rcases hround with rfl | rfl
        · exact hc
        · exact clock.isCancelled_cancel
      simp only [step, hr]
      split
      · exact hc'
      · split
        · exact hc'
        next clock'' hn =>
          rcases Batch.nextClock?_eq_some hn with ⟨-, rfl⟩ | ⟨now, hw, -⟩
          · exact hc'
          · exact absurd hw.running (by simp [hc'])

namespace Agent

variable {a : Agent} {client : Client σ} {inputs : List ChatMessage} {t t' : Turn σ}

/-! ## Moments -/

/-- Providers come one after the other, as they are registered. -/
theorem step_recalling {stage : Stage} {ps : List Provider}
    (h : (a.step client t stage).1 = .recalling ps) : ps = a.memory ∨ ∃ p, stage = .recalling (p :: ps) := by
  cases stage with
  | arriving inputs =>
    simp only [step] at h
    split at h
    · cases h
    · cases h; exact .inl rfl
  | recalling qs =>
    cases qs with
    | nil => cases h
    | cons q qs =>
      simp only [step] at h
      split at h
      · cases h
      · cases h; exact .inr ⟨q, rfl⟩
  | asking =>
    simp only [step] at h
    split at h <;> cases h
  | calling | reflecting | ended => cases h
  | executing =>
    simp only [step] at h
    split at h
    · split at h <;> cases h
    · cases h
  | concluding =>
    simp only [step] at h
    split at h <;> cases h

theorem moment_recalling {n : Nat} {ps : List Provider}
    (h : (a.moment client inputs t n).1 = .recalling ps) : ps <:+ a.memory := by
  induction n generalizing ps with
  | zero => cases h
  | succ n ih =>
    rcases step_recalling h with rfl | ⟨p, hp⟩
    · exact List.suffix_rfl
    · exact (List.suffix_cons p ps).trans (ih hp)

theorem ask_cancelled (tools : List ToolOffer) (hc : t.clock.isCancelled = true) :
    a.ask client tools t = (.error (.error .cancelled), t) := by
  simp [ask, hc]

theorem reflect_cancelled (hc : t.clock.isCancelled = true) :
    a.reflect client t = (.error (.error .cancelled), t) := by
  simp [reflect, ask_cancelled _ hc]

theorem conclude_cancelled (calls : List ToolCall) (results : List ToolResult)
    (hc : t.clock.isCancelled = true) :
    (a.conclude client calls results t).2.inquiries = t.inquiries ∧
      (a.conclude client calls results t).2.clock = t.clock := by
  unfold conclude
  split
  next h more _ =>
    simp only [respond]
    split <;> exact ⟨rfl, rfl⟩
  next =>
    split
    · rw [reflect_cancelled hc]; exact ⟨rfl, rfl⟩
    · exact ⟨rfl, rfl⟩

/-- Under a cancelled token a step asks nothing, and the token stays cancelled. -/
theorem step_cancelled {stage : Stage} (hps : ∀ ps, stage = .recalling ps → ∀ p ∈ ps, p.KeepsToken)
    (hc : (stage.clock t).isCancelled = true) :
    (a.step client t stage).2.inquiries = t.inquiries ∧
      ((a.step client t stage).1.clock (a.step client t stage).2).isCancelled = true := by
  cases stage with
  | arriving inputs =>
    simp only [step]
    rcases takeIn_eq client.capabilities inputs t with ⟨-, ht⟩ | ⟨-, ht⟩
    · rw [ht]; exact ⟨rfl, hc⟩
    · rw [ht]; exact ⟨rfl, hc⟩
  | recalling ps =>
    cases ps with
    | nil => exact ⟨rfl, hc⟩
    | cons p ps =>
      have hp : (p.update t.context t.clock).2.2.isCancelled = true := hps _ rfl p (by simp) _ _ hc
      rcases hu : p.update t.context t.clock with ⟨messages, recalled, clock⟩
      rw [hu] at hp
      cases recalled with
      | items found =>
        have ha : a.augment [p] t = (.ok (), Turn.emitQuery
            { t with context := { t.context with messages := messages }, clock := clock } found a.name) := by
          simp [augment, hu]
        simp only [step, ha, Turn.emitQuery_inquiries, Stage.clock, Turn.emitQuery_clock]
        exact ⟨trivial, hp⟩
      | failure | panic =>
        simp only [step, augment, hu]
        exact ⟨trivial, hp⟩
  | asking =>
    have ha : a.ask client a.registry.offers t = (.error (.error .cancelled), t) := ask_cancelled _ hc
    simp only [step, ha]
    exact ⟨trivial, hc⟩
  | calling calls usage => exact ⟨rfl, hc⟩
  | executing calls effort =>
    simp only [step]
    split
    · split
      next hr =>
        obtain ⟨-, rfl⟩ := Batch.report?_eq_some.1 hr
        exact ⟨rfl, hc⟩
      next => exact ⟨rfl, hc⟩
    · exact ⟨rfl, effort.step_cancelled _ hc⟩
  | concluding calls results =>
    simp only [step]
    split
    · exact ⟨rfl, hc⟩
    · obtain ⟨hi, hclock⟩ := conclude_cancelled calls results hc
      exact ⟨hi, (congrArg Clock.isCancelled hclock).trans hc⟩
  | reflecting =>
    simp only [step, reflect_cancelled hc]
    exact ⟨trivial, hc⟩
  | ended ending => exact ⟨rfl, hc⟩

/-- From a moment with a cancelled token nothing is asked any more. -/
theorem moment_cancelled (hp : ∀ p ∈ a.memory, p.KeepsToken) {n m : Nat} (h : n ≤ m)
    (hc : ((a.moment client inputs t n).1.clock (a.moment client inputs t n).2).isCancelled = true) :
    (a.moment client inputs t m).2.inquiries = (a.moment client inputs t n).2.inquiries ∧
      ((a.moment client inputs t m).1.clock (a.moment client inputs t m).2).isCancelled = true := by
  induction m, h using Nat.le_induction with
  | base => exact ⟨rfl, hc⟩
  | succ m _ ih =>
    have hps : ∀ ps, (a.moment client inputs t m).1 = .recalling ps → ∀ p ∈ ps, p.KeepsToken :=
      fun ps he p hmem => hp p ((moment_recalling he).subset hmem)
    have hstep : (a.moment client inputs t (m + 1)).2.inquiries = (a.moment client inputs t m).2.inquiries ∧
        ((a.moment client inputs t (m + 1)).1.clock (a.moment client inputs t (m + 1)).2).isCancelled = true :=
      step_cancelled hps ih.2
    exact ⟨hstep.1.trans ih.1, hstep.2⟩

/-- No turn is stuck under a cancelled token. -/
theorem Traces.stuck_running {stage : Stage} (h : a.Traces client inputs t t' stage) (hs : stage.Stuck) :
    (stage.clock t').isCancelled = false := by
  cases stage with
  | executing calls effort =>
    obtain ⟨clock, -, he, hended⟩ := h.stuck hs
    obtain ⟨hc, -⟩ := Registry.execute?_eq_none.1 he
    rwa [hended] at hc
  | _ => exact hs.elim

theorem turn_inquiries_cancelled (hp : ∀ p ∈ a.memory, p.KeepsToken) {n : Nat}
    (hc : ((a.moment client inputs t n).1.clock (a.moment client inputs t n).2).isCancelled = true) :
    (a.turn client inputs t).2.inquiries = (a.moment client inputs t n).2.inquiries := by
  obtain ⟨m, hm⟩ := a.moment_end client inputs t
  obtain ⟨hi, hlater⟩ := moment_cancelled hp (Nat.le_max_left n m) hc
  rcases hm with hm | hm
  · rwa [hm _ (Nat.le_max_right n m)] at hi
  · have hrunning := (a.moment_traces client inputs t (max n m)).stuck_running (hm _ (Nat.le_max_right n m))
    rw [hrunning] at hlater
    cases hlater

/-- Once memory is done, a first inference is due. -/
theorem recalling_asking {t' : Turn σ} : ∀ {ps : List Provider} {n : Nat} {t₁ : Turn σ},
    a.moment client inputs t n = (.recalling ps, t₁) → a.augment ps t₁ = (.ok (), t') →
      ∃ m, a.moment client inputs t m = (.asking, t')
  | [], n, t₁, hn, hm => by
    cases hm
    exact ⟨n + 1, by rw [moment_succ, hn]; rfl⟩
  | p :: ps, n, t₁, hn, hm => by
    rw [a.augment_cons] at hm
    match ha : a.augment [p] t₁ with
    | (.error stop, t₂) =>
      rw [ha] at hm
      cases hm
    | (.ok (), t₂) =>
      rw [ha] at hm
      have hnext : a.moment client inputs t (n + 1) = (.recalling ps, t₂) := by
        rw [moment_succ, hn]
        simp only [step, ha]
      exact recalling_asking hnext hm

theorem exists_asking {t' : Turn σ} (hs : client.capabilities.Sees inputs)
    (hm : a.augment a.memory (t.given inputs) = (.ok (), t')) :
    ∃ n, a.moment client inputs t n = (.asking, t') := by
  have h : a.moment client inputs t 1 = (.recalling a.memory, t.given inputs) := by
    rw [moment_succ]
    simp only [moment, step, takeIn_of_sees hs]
  exact recalling_asking h hm

/-- The turn breaks off where an inference is due under a cancelled token. -/
theorem turn_unasked {n : Nat}
    (hn : (a.moment client inputs t n).1 = .asking ∨ (a.moment client inputs t n).1 = .reflecting)
    (hc : (a.moment client inputs t n).2.clock.isCancelled = true) :
    a.turn client inputs t = (.error (.error .cancelled), (a.moment client inputs t n).2) := by
  rw [← a.moment_rest client inputs t n]
  rcases hn with hn | hn
  · rw [hn]
    simp [rest, answer, ask_cancelled _ hc]
  · rw [hn]
    exact reflect_cancelled hc

/-! ## Courses -/

/-- The ending left to a turn by its tool calls, if nothing can be asked any more. -/
def haltsWith (a : Agent) (calls : List ToolCall) (results : List ToolResult) : Except Stop ChatMessage :=
  match a.handoffOf? calls with
  | some h => .ok (.handoff h.message h.target a.name)
  | none =>
    if a.reflects then .error (.error .cancelled)
    else .ok (.toolCallSummary (Summary.renderAll a.template calls results) a.name)

theorem haltsWith_handoff {calls : List ToolCall} {results : List ToolResult} {h : Handoff}
    {more : List Handoff} (hh : a.registry.handoffsIn calls = h :: more) :
    a.haltsWith calls results = .ok (.handoff h.message h.target a.name) := by
  simp [haltsWith, handoffOf?_eq, hh]

theorem haltsWith_none {calls : List ToolCall} {results : List ToolResult}
    (hh : a.registry.handoffsIn calls = []) : a.haltsWith calls results =
      if a.reflects then .error (.error .cancelled)
      else .ok (.toolCallSummary (Summary.renderAll a.template calls results) a.name) := by
  simp [haltsWith, handoffOf?_eq, hh]

variable {k : Course} {b : Round} {q : Inquiry} {calls : List ToolCall} {usage : Usage}

theorem Asks.reply {tools : List ToolOffer} {r : Except Stop Inference} (h : a.Asks client tools t (r, t'))
    (ht : t.inquiries = []) (hq : t'.inquiries = [q]) : q.reply.accepted = r := by
  rcases h.inquiries with ⟨he, -⟩ | ⟨q', he, -, -, hr⟩
  · simp [he, ht] at hq
  · obtain rfl : q' = q := by simpa [he, ht] using hq
    exact hr

/-- The batch for a single reply. -/
theorem Batches.unique (h : a.Batches client t b t') (ht : t.inquiries = []) (hq : t'.inquiries = [q])
    (hr : q.reply = .result ⟨.toolCalls calls, usage⟩) :
    b = ⟨calls, usage, (a.registry.execute (client.create t.client q.request q.clock).2.2 calls).results⟩ ∧
      t'.context = q.context.addAll (a.exchange b) := by
  obtain ⟨q', he, hctx, hreply, hresults⟩ := h.replied
  obtain rfl : q' = q := by simpa [he, ht] using hq
  obtain ⟨rfl, rfl⟩ : b.calls = calls ∧ b.usage = usage := by simpa [hreply] using hr
  refine ⟨?_, by rw [h.context, hctx]⟩
  rw [← hresults]

/-- A turn whose client is asked once, and wants calls, has their results stored, and ends with
what it can without asking again. -/
theorem Takes.halted (h : a.Takes client t k t') (ht : t.inquiries = []) (hq : t'.inquiries = [q])
    (hr : q.reply = .result ⟨.toolCalls calls, usage⟩) (hc : calls ≠ []) :
    let results := (a.registry.execute (client.create t.client q.request q.clock).2.2 calls).results
    k.outcome a = a.haltsWith calls results ∧
      t'.context = q.context.addAll (a.exchange ⟨calls, usage, results⟩) := by
  intro results
  have hreply : q.reply.accepted = .ok ⟨.toolCalls calls, usage⟩ := by rw [hr, Reply.accepted_calls usage hc]
  cases h with
  | unanswered ha | told ha =>
    have := (ha.reply ht hq).symm.trans hreply
    cases this
  | handedOver hb hh =>
    rw [noteHandoffs_inquiries] at hq
    obtain ⟨rfl, hctx⟩ := hb.unique ht hq hr
    exact ⟨(haltsWith_handoff hh).symm, (noteHandoffs_context _ _).trans hctx⟩
  | summarised hb hh hrefl =>
    obtain ⟨rfl, hctx⟩ := hb.unique ht hq hr
    exact ⟨by rw [haltsWith_none hh, hrefl]; rfl, hctx⟩
  | unreflected hb hh hrefl ha =>
    obtain ⟨q', he, -⟩ := hb.inquiries
    -- A second request would be one too many.
    rcases ha.inquiries with ⟨hi, hstop⟩ | ⟨q'', hi, -⟩
    · obtain ⟨rfl, hctx⟩ := hb.unique ht (hi ▸ hq) hr
      cases hstop
      exact ⟨by rw [haltsWith_none hh, hrefl]; rfl, ha.context_error.trans hctx⟩
    · simp [hi, he, ht] at hq
  | reflected hb _ _ ha | overreached hb _ _ ha =>
    obtain ⟨q', he, -⟩ := hb.inquiries
    obtain ⟨q'', hi, -⟩ := ha.inquiries_ok
    simp [hi, he, ht] at hq

/-! ## Replies -/

end Agent

theorem Reply.accepted_cancelled {r : Reply} (h : r = .error .cancelled) :
    r.accepted = .error (.error .cancelled) := by
  rw [h]
  rfl

/-- A cancellation is not passed on as an error of the client. -/
theorem Reply.accepted_ne_cancelled (r : Reply) : r.accepted ≠ .error (.error (.client .cancelled)) := by
  rcases r.cases with ⟨stop, hb⟩ | ⟨text, usage, rfl⟩ | ⟨calls, usage, rfl, hne⟩
  · rw [hb.accepted]
    cases hb with
    | error he => simpa using he
    | panic | cancelled | empty => simp
  · simp [accepted]
  · simp [accepted_calls usage hne]

namespace Agent

variable {a : Agent} {client : Client σ} {inputs : List ChatMessage} {t t' : Turn σ} {k : Course} {b : Round}

/-- A request is made only while the token is not cancelled, and its reply is what the inference gives. -/
theorem Asks.asked {tools : List ToolOffer} {r : Except Stop Inference} (h : a.Asks client tools t (r, t')) :
    ∀ q ∈ t'.inquiries, q ∈ t.inquiries ∨ q.clock.isCancelled = false ∧ q.reply.accepted = r := by
  intro q hq
  cases h with
  | cancelled _ => exact .inl hq
  | refused hc _ hr | accepted hc _ hr =>
    rcases List.mem_append.1 hq with hq | hq
    · exact .inl hq
    · obtain rfl := List.mem_singleton.1 hq
      exact .inr ⟨hc, hr⟩

theorem Asks.ne_cancelled {tools : List ToolOffer} {stop : Stop} (h : a.Asks client tools t (.error stop, t')) :
    stop ≠ .error (.client .cancelled) := by
  cases h with
  | cancelled _ => simp
  | @refused reply _ _ _ _ _ hr =>
    rintro rfl
    exact reply.accepted_ne_cancelled hr

/-- A request was made while the token was not cancelled, and a cancellation by the client itself
ends the turn as any other. -/
def Heeds (outcome : Except Stop ChatMessage) (q : Inquiry) : Prop :=
  q.clock.isCancelled = false ∧ (q.reply = .error .cancelled → outcome = .error (.error .cancelled))

theorem Batches.heeds {outcome : Except Stop ChatMessage} (h : a.Batches client t b t') (ht : t.inquiries = []) :
    ∀ q ∈ t'.inquiries, Heeds outcome q := by
  obtain ⟨ha⟩ := h
  intro q hq
  rcases ha.asked q hq with hq | ⟨hc, hr⟩
  · simp [ht] at hq
  · refine ⟨hc, fun hreply => ?_⟩
    rw [Reply.accepted_cancelled hreply] at hr
    cases hr

theorem Asks.heeds {tools : List ToolOffer} {r : Except Stop Inference} {outcome : Except Stop ChatMessage}
    (h : a.Asks client tools t (r, t')) (ht : ∀ q ∈ t.inquiries, Heeds outcome q)
    (hr : r = .error (.error .cancelled) → outcome = .error (.error .cancelled)) :
    ∀ q ∈ t'.inquiries, Heeds outcome q := by
  intro q hq
  rcases h.asked q hq with hq | ⟨hc, hacc⟩
  · exact ht q hq
  · exact ⟨hc, fun hreply => hr (hacc.symm.trans (Reply.accepted_cancelled hreply))⟩

theorem Takes.heeds (h : a.Takes client t k t') (ht : t.inquiries = []) :
    ∀ q ∈ t'.inquiries, Heeds (k.outcome a) q := by
  have hnone : ∀ q ∈ t.inquiries, Heeds (k.outcome a) q := by simp [ht]
  cases h with
  | unanswered ha =>
    refine ha.heeds hnone fun hr => ?_
    cases hr
    rfl
  | told ha => exact ha.heeds hnone nofun
  | handedOver hb _ =>
    rw [noteHandoffs_inquiries]
    exact hb.heeds ht
  | summarised hb _ _ => exact hb.heeds ht
  | unreflected hb _ _ ha =>
    refine ha.heeds (hb.heeds ht) fun hr => ?_
    cases hr
    rfl
  | reflected hb _ _ ha | overreached hb _ _ ha => exact ha.heeds (hb.heeds ht) nofun

theorem Takes.ne_cancelled (h : a.Takes client t k t') :
    k.outcome a ≠ .error (.error (.client .cancelled)) := by
  cases h with
  | unanswered ha | unreflected _ _ _ ha =>
    simpa [Course.outcome] using ha.ne_cancelled
  | told | handedOver | summarised | reflected | overreached => simp [Course.outcome]

/-! ## Whole turns -/

variable {ended : Ending × Turn σ}

theorem Goes.heeds (h : a.Goes client inputs t ended) (ht : t.inquiries = []) {q : Inquiry}
    (hq : q ∈ ended.2.inquiries) : q.clock.isCancelled = false ∧
      (q.reply = .error .cancelled → ended.1 = .error (.error .cancelled)) := by
  rcases h.course ht with ⟨-, -, -, hnone, -⟩ | ⟨t₁, k, hnone, -, hk, he⟩
  · simp [hnone] at hq
  · obtain ⟨hc, hr⟩ := hk.heeds hnone q hq
    exact ⟨hc, fun hreply => he.trans (Ending.of_eq_error.2 (hr hreply))⟩

theorem Goes.ne_cancelled (h : a.Goes client inputs t ended) :
    ended.1 ≠ .error (.error (.client .cancelled)) := by
  cases h with
  | refused => simp
  | forgot _ hm =>
    intro he
    cases he
    cases augment_stop hm
  | answered _ _ hk => exact fun he => hk.ne_cancelled (Ending.of_eq_error.1 he)

theorem Goes.halted {q : Inquiry} {calls : List ToolCall} {usage : Usage} (h : a.Goes client inputs t ended)
    (ht : t.inquiries = []) (hq : ended.2.inquiries = [q])
    (hr : q.reply = .result ⟨.toolCalls calls, usage⟩) (hc : calls ≠ []) :
    let results := (a.registry.execute (client.create t.client q.request q.clock).2.2 calls).results
    ended.2.context = q.context.addAll (a.exchange ⟨calls, usage, results⟩) ∧
      ended.1 = .of (a.haltsWith calls results) ended.2.events := by
  rcases h.course ht with ⟨-, -, -, hnone, -⟩ | ⟨t₁, k, hnone, hclient, hk, he⟩
  · cases hnone.symm.trans hq
  · obtain ⟨hout, hctx⟩ := hk.halted hnone hq hr hc
    rw [hclient] at hout hctx
    exact ⟨hctx, by rw [he, hout]⟩

/-- **A cancelled turn.** Nothing is asked of the client under a cancelled token; so from the moment
at which the token is cancelled, wherever in the turn that is, there are no more requests. Where an
inference is due by then, the turn breaks off and stores nothing more: the first one is due when
memory is done, the second one to reflect on results. If the client has replied with calls before,
their results are stored, and the turn ends with the handoff or with the summary, or is cut off if
it would have to ask again. When the client itself says that it was cancelled, the turn was. -/
theorem turn_cancelled (a : Agent) (client : Client σ) (inputs : List ChatMessage) (context : Context)
    (state : σ) (clock : Clock) (h : ∀ p ∈ a.memory, p.KeepsToken) :
    let t := Turn.start context state clock
    let ended := a.turn client inputs t
    let moment := a.moment client inputs t
    (∀ q ∈ ended.2.inquiries, q.clock.isCancelled = false) ∧
    (∀ t₁, client.capabilities.Sees inputs → a.augment a.memory (t.given inputs) = (.ok (), t₁) →
      ∃ n, moment n = (.asking, t₁)) ∧
    (∀ n, ((moment n).1.clock (moment n).2).isCancelled = true →
      ended.2.inquiries = (moment n).2.inquiries ∧
      ((moment n).1 = .asking ∨ (moment n).1 = .reflecting →
        ended = (.error (.error .cancelled), (moment n).2)) ∧
      ∀ q calls usage, (moment n).2.inquiries = [q] → q.reply = .result ⟨.toolCalls calls, usage⟩ →
        calls ≠ [] →
        let results := (a.registry.execute (client.create state q.request q.clock).2.2 calls).results
        ended.2.context = q.context.addAll
          [.assistant (.toolCalls calls) a.name (some usage), .toolResults results] ∧
        ended.1 = .of (a.haltsWith calls results) ended.2.events) ∧
    (∀ q ∈ ended.2.inquiries, q.reply = .error .cancelled → ended.1 = .error (.error .cancelled)) ∧
    ended.1 ≠ .error (.error (.client .cancelled)) := by
  intro t ended moment
  have hg : a.Goes client inputs t ended := a.turn_goes client inputs t
  refine ⟨fun q hq => (hg.heeds rfl hq).1, fun t₁ => exists_asking, fun n hc => ?_,
    fun q hq => (hg.heeds rfl hq).2, hg.ne_cancelled⟩
  have hi : ended.2.inquiries = (moment n).2.inquiries := turn_inquiries_cancelled h hc
  refine ⟨hi, fun hn => turn_unasked hn ?_, fun q calls usage hq hr hne => hg.halted rfl (hi.trans hq) hr hne⟩
  -- No batch is under way there, so the clock is the turn's.
  rcases hn with hn | hn
  · rwa [hn] at hc
  · rwa [hn] at hc

/-- An agent that reflects on what its tools give, one of which cancels the token. -/
def halter : Agent := { forecaster with name := "halter", registry := .stopper }

/-- A model asks for the tool that cancels and for one behind it, and would go on after that. -/
def halt : Replay := .ofList [⟨.toolCalls [⟨"1", "stop", "null"⟩, ⟨"2", "slow", "null"⟩], .none⟩, ⟨.text "Done.", .none⟩]

theorem halter_cancelled :
    let ended := halter.turn (Replay.client .usual) [.text "Go." "user" none] (.start .unbounded halt .start)
    (∀ p ∈ halter.memory, p.KeepsToken) ∧ ended.1 = .error (.error .cancelled) ∧
      ended.2.inquiries.length = 1 ∧
      ended.2.context.messages = [.user (.text "Go.") "user", .system "It rains.",
        .assistant (.toolCalls [⟨"1", "stop", "null"⟩, ⟨"2", "slow", "null"⟩]) "halter" (some .none),
        .toolResults [⟨"1", "stopped", false⟩, ⟨"2", "Error: Tool call '2' was cancelled", true⟩]] := by
  intro ended
  have h : ∀ p ∈ halter.memory, p.KeepsToken := by
    simp only [halter, forecaster, List.mem_singleton, forall_eq]
    exact Provider.scripted_keepsToken _ _ _ _
  obtain ⟨-, -, hmoment, -, -⟩ := turn_cancelled halter (Replay.client .usual) [.text "Go." "user" none]
    .unbounded halt .start h
  -- The sixth step is the first round of the batch, in which the token is cancelled.
  obtain ⟨hi, -, hbatch⟩ := hmoment 6 rfl
  obtain ⟨hctx, hend⟩ := hbatch _ _ _ rfl rfl (by simp)
  exact ⟨h, hend, congrArg List.length hi, congrArg Context.messages hctx⟩

end Agent
end ToolAgent
