/-
What a turn ends with.

`Agent.Leads` says what comes of one inference, by the reply of the client, and
`Agent.Concludes` what comes of the batch when the reply asks for tool calls. Together they
settle the end of every turn that ends (`turn_ends`): at most two requests and one batch, and
then the one ending that the replies, the handoffs among the calls, and the agent's way of
reflecting leave.
-/
import ToolAgent.Proofs.Turn.Hanging

namespace ToolAgent

variable {σ : Type}

/-! ## Replies -/

/-- The reply makes a turn break off. A list of calls must not be empty. -/
inductive Reply.Breaks : Reply → Stop → Prop
  | panic {payload} : Breaks (.panic payload) (.panic payload)
  | cancelled : Breaks (.error .cancelled) (.error .cancelled)
  | error {e} : e ≠ .cancelled → Breaks (.error e) (.error (.client e))
  | empty {usage} : Breaks (.result ⟨.toolCalls [], usage⟩)
      (.error (.client (.invalidResponse "empty tool call list")))

theorem Reply.Breaks.accepted {r : Reply} {stop : Stop} (h : r.Breaks stop) : r.accepted = .error stop := by
  cases h with
  | @error e he => cases e <;> first | rfl | exact absurd rfl he
  | _ => rfl

theorem Reply.accepted_calls {calls : List ToolCall} (usage : Usage) (h : calls ≠ []) :
    (Reply.result ⟨.toolCalls calls, usage⟩).accepted = .ok ⟨.toolCalls calls, usage⟩ := by
  cases calls with
  | nil => exact absurd rfl h
  | cons => rfl

/-- There are no other replies. -/
theorem Reply.cases (r : Reply) : (∃ stop, r.Breaks stop) ∨
    (∃ text usage, r = .result ⟨.text text, usage⟩) ∨
    ∃ calls usage, r = .result ⟨.toolCalls calls, usage⟩ ∧ calls ≠ [] := by
  match r with
  | .panic _ => exact .inl ⟨_, .panic⟩
  | .error e =>
    by_cases he : e = .cancelled
    · subst he
      exact .inl ⟨_, .cancelled⟩
    · exact .inl ⟨_, .error he⟩
  | .result ⟨.text text, usage⟩ => exact .inr (.inl ⟨text, usage, rfl⟩)
  | .result ⟨.toolCalls [], usage⟩ => exact .inl ⟨_, .empty⟩
  | .result ⟨.toolCalls (c :: calls), usage⟩ => exact .inr (.inr ⟨_, usage, rfl, nofun⟩)

/-! ## Traces of batches in a turn -/

namespace Turn

/-- The audit records in the log of a turn. -/
def audits (t : Turn σ) : List Audit :=
  t.notices.filterMap fun
    | .audit a => some a
    | .diagnostic _ => none

/-- The batches that have been run, each by its results. -/
def batches (t : Turn σ) : List (List ToolResult) :=
  t.events.filterMap fun
    | .toolCallExecution results _ => some results
    | _ => none

/-- Between two states of a turn there have been these inquiries, and no batch. -/
structure Inquires (t : Turn σ) (qs : List Inquiry) (t' : Turn σ) : Prop where
  inquiries : t'.inquiries = t.inquiries ++ qs
  audits : t'.audits = t.audits
  batches : t'.batches = t.batches

end Turn

namespace Agent

/-! ## One inference -/

/-- The request that an inference makes, and the reply to it. -/
structure Replied (a : Agent) (client : Client σ) (tools : List ToolOffer) (t : Turn σ) (q : Inquiry)
    (t' : Turn σ) : Prop where
  request : q.request = a.request tools t
  reply : q.reply = (client.create t.client q.request t.clock).1
  state : t'.client = (client.create t.client q.request t.clock).2.1
  clock : t'.clock = (client.create t.client q.request t.clock).2.2
  events : t'.events = t.events
  inquires : t.Inquires [q] t'

/-- What comes of an inference in a state of a turn. Under a cancelled token nothing is asked, and
the turn breaks off. Else there is one request: its reply makes the turn break off, or it is text
and ends the turn unchanged, or it asks for tool calls, and something comes `next`. -/
structure Leads (a : Agent) (client : Client σ) (tools : List ToolOffer) (t : Turn σ)
    (ended : Ending × Turn σ) (next : Inquiry → List ToolCall → Prop) : Prop where
  unasked : t.clock.isCancelled = true → ended.1 = .error (.error .cancelled) ∧ t.Inquires [] ended.2
  asked : t.clock.isCancelled = false →
    ∃ q : Inquiry, q.request = a.request tools t ∧ q.reply = (client.create t.client q.request t.clock).1 ∧
      (∀ stop, q.reply.Breaks stop → ended.1 = .error stop ∧ t.Inquires [q] ended.2) ∧
      (∀ text usage, q.reply = .result ⟨.text text, usage⟩ →
        ended.1 = .ok ⟨.text text a.name (some usage), t.events⟩ ∧ t.Inquires [q] ended.2) ∧
      ∀ calls usage, q.reply = .result ⟨.toolCalls calls, usage⟩ → calls ≠ [] → next q calls

section Inference

variable {a : Agent} {client : Client σ} {tools : List ToolOffer} {t t' : Turn σ}
  {ended : Ending × Turn σ} {next : Inquiry → List ToolCall → Prop}

theorem Asks.unasked {r} (h : a.Asks client tools t (r, t')) (hc : t.clock.isCancelled = true) :
    r = .error (.error .cancelled) ∧ t' = t := by
  cases h with
  | cancelled _ => exact ⟨rfl, rfl⟩
  | refused hc' | accepted hc' => rw [hc] at hc'; cases hc'

theorem Asks.replied {r} (h : a.Asks client tools t (r, t')) (hc : t.clock.isCancelled = false) :
    ∃ q, a.Replied client tools t q t' ∧ q.reply.accepted = r := by
  cases h with
  | cancelled hc' => rw [hc] at hc'; cases hc'
  | @refused reply state clock stop _ hr ha =>
    exact ⟨⟨t.context, t.clock, a.request tools t, reply⟩,
      ⟨rfl, by rw [hr], by rw [hr]; rfl, by rw [hr]; rfl, rfl, ⟨rfl, rfl, rfl⟩⟩, ha⟩
  | @accepted reply state clock r _ hr ha =>
    exact ⟨⟨t.context, t.clock, a.request tools t, reply⟩,
      ⟨rfl, by rw [hr], by rw [hr]; rfl, by rw [hr]; rfl, rfl, ⟨rfl, rfl, rfl⟩⟩, ha⟩

/-- What a turn makes of an inference settles what that leads to. -/
theorem Asks.leads {r} (h : a.Asks client tools t (r, t'))
    (hstop : ∀ stop, r = .error stop → ended = (.error stop, t'))
    (htext : ∀ text usage, r = .ok ⟨.text text, usage⟩ → ended = respond (a.textReply text usage) t')
    (hcalls : ∀ calls usage, r = .ok ⟨.toolCalls calls, usage⟩ →
      ∀ q, a.Replied client tools t q t' → next q calls) :
    a.Leads client tools t ended next := by
  refine ⟨fun hc => ?_, fun hc => ?_⟩
  · obtain ⟨rfl, rfl⟩ := h.unasked hc
    rw [hstop _ rfl]
    exact ⟨rfl, by simp, rfl, rfl⟩
  · obtain ⟨q, hq, ha⟩ := h.replied hc
    refine ⟨q, hq.request, hq.reply, fun stop hb => ?_, fun text usage ht => ?_, fun calls usage ht hne => ?_⟩
    · rw [hstop stop (ha.symm.trans hb.accepted)]
      exact ⟨rfl, hq.inquires⟩
    · rw [ht] at ha
      rw [htext text usage ha.symm, respond, textReply, hq.events]
      exact ⟨rfl, hq.inquires⟩
    · rw [ht, Reply.accepted_calls usage hne] at ha
      exact hcalls calls usage ha.symm q hq

end Inference

/-! ## Behind the first reply -/

/-- The first handoff that calls name. -/
def handoffOf? (a : Agent) (calls : List ToolCall) : Option Handoff :=
  calls.findSome? fun c => a.registry.handoff? c.name

theorem handoffOf?_eq (a : Agent) (calls : List ToolCall) :
    a.handoffOf? calls = (a.registry.handoffsIn calls).head? := by
  rw [handoffOf?, Registry.handoffsIn, List.head?_filterMap]

/-- What comes of the tool calls in the reply to the request `q` of a turn in state `t`: they have
been run as one batch, with this report. If a call names a handoff, control goes where the first of
them wants it. Else the model is asked once more, without tools, if the agent reflects, and may not
ask for tools again. Else the turn ends with a summary. -/
structure Concludes (a : Agent) (client : Client σ) (t : Turn σ) (ended : Ending × Turn σ) (q : Inquiry)
    (calls : List ToolCall) (report : BatchReport) : Prop where
  audits : ended.2.audits = t.audits ++ report.audits
  batches : ended.2.batches = t.batches ++ [report.results]
  handoff : ∀ h, a.handoffOf? calls = some h → ended.2.inquiries = t.inquiries ++ [q] ∧
    ∃ events, ended.1 = .ok ⟨.handoff h.message h.target a.name, events⟩
  summary : a.handoffOf? calls = none → a.reflects = false → ended.2.inquiries = t.inquiries ++ [q] ∧
    ∃ events pieces, ended.1 = .ok ⟨.toolCallSummary ("\n".intercalate pieces) a.name, events⟩ ∧
      pieces.length = calls.length ∧ ∀ (i : Nat) (c : ToolCall), calls[i]? = some c →
        ∃ r, report.results[i]? = some r ∧ pieces[i]? = some (Summary.render a.template c r)
  reflection : a.handoffOf? calls = none → a.reflects = true →
    ∃ t₁ : Turn σ, t₁.inquiries = t.inquiries ++ [q] ∧
      t₁.client = (client.create t.client q.request t.clock).2.1 ∧ t₁.clock = report.clock ∧
      a.Leads client [] t₁ ended fun q' calls' =>
        ended.1 = .error (.error (.reflectionRequestedTools calls'.length)) ∧ t₁.Inquires [q'] ended.2

/-- What comes of tool calls whose batch ends. -/
def Batched (a : Agent) (client : Client σ) (t : Turn σ) (ended : Ending × Turn σ) (q : Inquiry)
    (calls : List ToolCall) : Prop :=
  ∀ report, a.registry.execute? (client.create t.client q.request t.clock).2.2 calls = some report →
    a.Concludes client t ended q calls report

theorem Concludes.responds {a : Agent} {client : Client σ} {t : Turn σ} {ended : Ending × Turn σ} {q : Inquiry}
    {calls : List ToolCall} {report : BatchReport} (h : a.Concludes client t ended q calls report)
    (hr : a.reflects = false) :
    ∃ response, ended.1 = .ok response := by
  cases hh : a.handoffOf? calls with
  | some found =>
    obtain ⟨-, events, he⟩ := h.handoff found hh
    exact ⟨_, he⟩
  | none =>
    obtain ⟨-, events, pieces, he, -⟩ := h.summary hh hr
    exact ⟨_, he⟩

/-- A summary has a piece for each call, in the order of the calls. -/
theorem renderAll_pieces (template : String) {calls : List ToolCall} {results : List ToolResult}
    (h : results.length = calls.length) :
    ∃ pieces, Summary.renderAll template calls results = "\n".intercalate pieces ∧
      pieces.length = calls.length ∧ ∀ (i : Nat) (c : ToolCall), calls[i]? = some c →
        ∃ r, results[i]? = some r ∧ pieces[i]? = some (Summary.render template c r) := by
  refine ⟨_, rfl, by simp [h], fun i c hc => ?_⟩
  have hi : i < results.length := h ▸ (List.getElem?_eq_some_iff.1 hc).1
  have hr : results[i]? = some results[i] := List.getElem?_eq_getElem hi
  have hz : (calls.zip results)[i]? = some (c, results[i]) := List.getElem?_zip_eq_some.2 ⟨hc, hr⟩
  exact ⟨results[i], hr, by rw [List.getElem?_map, hz]; rfl⟩

section Batch

variable {a : Agent} {client : Client σ} {t t₁ : Turn σ}

theorem callTools_audits (a : Agent) (calls : List ToolCall) (usage : Usage) (t : Turn σ) :
    (a.callTools calls usage t).2.audits = t.audits ++ (a.registry.execute t.clock calls).audits := by
  simp only [callTools, Turn.audits, Turn.emit, Turn.note, Turn.store, List.filterMap_append, List.filterMap_map]
  exact congrArg _ List.filterMap_some

theorem callTools_batches (a : Agent) (calls : List ToolCall) (usage : Usage) (t : Turn σ) :
    (a.callTools calls usage t).2.batches = t.batches ++ [(a.registry.execute t.clock calls).results] := by
  simp [callTools, Turn.batches, Turn.emit, Turn.note, Turn.store]

theorem noteHandoffs_audits (hs : List Handoff) (t : Turn σ) : (noteHandoffs hs t).audits = t.audits := by
  unfold noteHandoffs
  split <;> simp [Turn.audits, Turn.note]

theorem noteHandoffs_batches (hs : List Handoff) (t : Turn σ) : (noteHandoffs hs t).batches = t.batches := by
  rw [Turn.batches, noteHandoffs_events]; rfl

theorem reflect_snd (a : Agent) (client : Client σ) (t : Turn σ) :
    (a.reflect client t).2 = (a.ask client [] t).2 := by
  unfold reflect
  split <;> next h => exact (congrArg Prod.snd h).symm

theorem reflect_audits (a : Agent) (client : Client σ) (t : Turn σ) :
    (a.reflect client t).2.audits = t.audits ∧ (a.reflect client t).2.batches = t.batches := by
  have h := a.ask_asks client [] t
  rw [reflect_snd]
  match a.ask client [] t, h with
  | (r, t'), h => cases h <;> exact ⟨rfl, rfl⟩

theorem reflect_leads (a : Agent) (client : Client σ) (t : Turn σ) :
    a.Leads client [] t (a.reflect client t) fun q calls =>
      (a.reflect client t).1 = .error (.error (.reflectionRequestedTools calls.length)) ∧
        t.Inquires [q] (a.reflect client t).2 := by
  have h := a.ask_asks client [] t
  match he : a.ask client [] t with
  | (r, t') =>
    rw [he] at h
    refine h.leads ?_ ?_ ?_
    · rintro stop rfl
      simp only [reflect, he]
    · rintro text usage rfl
      simp only [reflect, he]
    · rintro calls usage rfl q hq
      have hr : a.reflect client t = (.error (.error (.reflectionRequestedTools calls.length)), t') := by
        simp only [reflect, he]
      rw [hr]
      exact ⟨rfl, hq.inquires⟩

/-- The batch for the calls in a reply, and what comes of it if it ends. -/
theorem conclude_concludes {q : Inquiry} {tools : List ToolOffer} {t' : Turn σ} {calls : List ToolCall}
    (hq : a.Replied client tools t q t') (usage : Usage) :
    let ran := a.callTools calls usage t'
    a.Batched client t (a.conclude client calls ran.1 ran.2) q calls := by
  intro ran report hsome
  rw [← hq.clock] at hsome
  obtain ⟨-, hreport⟩ := Registry.execute?_eq_some.1 hsome
  have haudits : ran.2.audits = t.audits ++ report.audits := by
    rw [callTools_audits, hq.inquires.audits, hreport]
  have hbatches : ran.2.batches = t.batches ++ [report.results] := by
    rw [callTools_batches, hq.inquires.batches, hreport]
  have hresults : ran.1 = report.results := congrArg BatchReport.results hreport
  have hinquiries : ran.2.inquiries = t.inquiries ++ [q] := hq.inquires.inquiries
  cases hh : a.registry.handoffsIn calls with
  | cons h more =>
    have hof : a.handoffOf? calls = some h := by rw [handoffOf?_eq, hh]; rfl
    have he : a.conclude client calls ran.1 ran.2 =
        respond (.handoff h.message h.target a.name) (noteHandoffs (h :: more) ran.2) := by
      simp only [conclude, hh]
      rfl
    rw [he]
    refine ⟨(noteHandoffs_audits _ _).trans haudits, (noteHandoffs_batches _ _).trans hbatches,
      fun h' hf => ?_, fun hf => ?_, fun hf => ?_⟩
    · obtain rfl : h = h' := by simpa [hof] using hf
      exact ⟨(noteHandoffs_inquiries _ _).trans hinquiries, _, rfl⟩
    · rw [hof] at hf; cases hf
    · rw [hof] at hf; cases hf
  | nil =>
    have hof : a.handoffOf? calls = none := by rw [handoffOf?_eq, hh]; rfl
    cases hr : a.reflects with
    | false =>
      have he : a.conclude client calls ran.1 ran.2 =
          respond (.toolCallSummary (Summary.renderAll a.template calls ran.1) a.name) ran.2 := by
        simp only [conclude, hh, hr]
        rfl
      have hlen : report.results.length = calls.length := hreport ▸ a.registry.execute_length _ calls
      obtain ⟨pieces, hp, hl, hi⟩ := renderAll_pieces a.template hlen
      rw [he, hresults, hp]
      refine ⟨haudits, hbatches, fun h' hf => ?_, fun _ _ => ⟨hinquiries, _, pieces, rfl, hl, hi⟩,
        fun _ hr' => ?_⟩
      · rw [hof] at hf; cases hf
      · rw [hr] at hr'; cases hr'
    | true =>
      have he : a.conclude client calls ran.1 ran.2 = a.reflect client ran.2 := by
        simp only [conclude, hh, hr]
        rfl
      obtain ⟨ha, hb⟩ := a.reflect_audits client ran.2
      rw [he]
      refine ⟨ha.trans haudits, hb.trans hbatches, fun h' hf => ?_, fun _ hr' => ?_, fun _ _ =>
        ⟨ran.2, hinquiries, hq.state, congrArg BatchReport.clock hreport, a.reflect_leads client ran.2⟩⟩
      · rw [hof] at hf; cases hf
      · rw [hr] at hr'; cases hr'

theorem answer_leads (a : Agent) (client : Client σ) (t : Turn σ) :
    a.Leads client a.registry.offers t (a.answer client t) (a.Batched client t (a.answer client t)) := by
  have h := a.ask_asks client a.registry.offers t
  match he : a.ask client a.registry.offers t with
  | (r, t') =>
    rw [he] at h
    refine h.leads ?_ ?_ ?_
    · rintro stop rfl
      simp only [answer, he]
    · rintro text usage rfl
      simp only [answer, he]
    · rintro calls usage rfl q hq
      simp only [answer, he]
      exact conclude_concludes hq usage

end Batch

/-! ## Whole turns -/

theorem augment_batches (a : Agent) : ∀ (ps : List Provider) (t : Turn σ),
    (a.augment ps t).2.batches = t.batches
  | [], _ => rfl
  | p :: ps, t => by
    match hu : p.update t.context t.clock with
    | (messages, recalled, clock) =>
      simp only [augment, hu]
      cases recalled with
      | items items =>
        refine (a.augment_batches ps _).trans ?_
        unfold Turn.emitQuery
        split <;> simp [Turn.batches, Turn.emit]
      | failure | panic => rfl

theorem answer_bounds (a : Agent) (client : Client σ) (t : Turn σ) :
    (∃ asked, (a.answer client t).2.inquiries = t.inquiries ++ asked ∧ asked.length ≤ 2) ∧
    ∃ run, (a.answer client t).2.batches = t.batches ++ run ∧ run.length ≤ 1 := by
  obtain ⟨k, hk, -⟩ := a.answer_takes client t
  obtain ⟨qs, hi, -, hp⟩ := hk.inquiries
  refine ⟨⟨qs, hi, ?_⟩, ?_⟩
  · have hlen := hp.length_le
    simp only [List.length_map, List.length_cons] at hlen
    cases hr : k.round? <;> simp [hr] at hlen <;> omega
  · rw [Turn.batches, hk.events, List.filterMap_append]
    refine ⟨_, rfl, ?_⟩
    unfold Course.events
    split <;> simp

/-- **What a turn ends with.** The client is asked twice at most, and at most one batch is run. A turn
comes to its end, unless the calls in the first reply make up a batch that never ends, which takes a
tool that waits for a cancellation. Inputs that are refused and memory that breaks off end the turn
before the first inference. Else what ends it is what that leads to, and the calls in its reply
(`Leads`, `Batched`); and if they are any and the agent does not reflect, the turn has a response,
whatever their tools do, as long as the batch comes to an end. -/
theorem turn_ends (a : Agent) (client : Client σ) (inputs : List ChatMessage) (t : Turn σ) :
    let ended := a.turn client inputs t
    let recalled := a.augment a.memory (t.given inputs)
    (∃ n, ∀ m, n ≤ m →
      ¬ a.Hangs client inputs t ∧ a.moment client inputs t m = (.ended ended.1, ended.2) ∨
      a.Hangs client inputs t ∧ (a.moment client inputs t m).1.Stuck) ∧
    ((∀ tool ∈ a.registry.all, ∀ args, (tool.body args).awaits = false) → ¬ a.Hangs client inputs t) ∧
    (∀ m, (a.moment client inputs t m).2.Grows ended.2) ∧
    (∃ asked, ended.2.inquiries = t.inquiries ++ asked ∧ asked.length ≤ 2) ∧
    (∃ run, ended.2.batches = t.batches ++ run ∧ run.length ≤ 1) ∧
    (¬ client.capabilities.Sees inputs → ended = (.error (.error .noVision), t)) ∧
    (client.capabilities.Sees inputs → ∀ stop, recalled.1 = .error stop →
      ended.1 = .error stop ∧ ended.2.inquiries = t.inquiries ∧ ended.2.batches = t.batches) ∧
    (client.capabilities.Sees inputs → recalled.1 = .ok () →
      recalled.2.inquiries = t.inquiries ∧ recalled.2.batches = t.batches ∧
      a.Leads client a.registry.offers recalled.2 ended (a.Batched client recalled.2 ended)) ∧
    (client.capabilities.Sees inputs → recalled.1 = .ok () → recalled.2.clock.isCancelled = false →
      ∀ calls usage, calls ≠ [] → a.reflects = false →
        (client.create recalled.2.client (a.request a.registry.offers recalled.2) recalled.2.clock).1 =
          .result ⟨.toolCalls calls, usage⟩ →
        ¬ a.Hangs client inputs t → ∃ response, ended.1 = .ok response) := by
  intro ended recalled
  have hi : recalled.2.inquiries = t.inquiries := a.augment_inquiries a.memory (t.given inputs)
  have hb : recalled.2.batches = t.batches := a.augment_batches a.memory (t.given inputs)
  refine ⟨a.moment_ended_or_stuck client inputs t, not_hangs, a.moment_grows_turn client inputs t, ?_⟩
  rcases takeIn_eq client.capabilities inputs t with ⟨hs, ht⟩ | ⟨hs, ht⟩
  · have he : ended = (.error (.error .noVision), t) := by simp only [ended, turn, ht]
    rw [he]
    exact ⟨⟨[], by simp⟩, ⟨[], by simp⟩, fun _ => rfl, fun hs' => absurd hs' hs, fun hs' => absurd hs' hs,
      fun hs' => absurd hs' hs⟩
  · rcases hm : a.augment a.memory (t.given inputs) with ⟨stop | ⟨⟩, t₁⟩
    · have he : ended = (.error stop, t₁) := by simp only [ended, turn, ht, hm]
      have hrec : recalled = (.error stop, t₁) := hm
      rw [hrec] at hi hb ⊢
      rw [he]
      refine ⟨⟨[], hi.trans (by simp), Nat.zero_le _⟩, ⟨[], hb.trans (by simp), Nat.zero_le _⟩,
        fun hs' => absurd hs hs', fun _ _ hstop => ?_, fun _ hok => ?_, fun _ hok => ?_⟩
      · cases hstop
        exact ⟨rfl, hi, hb⟩
      · cases hok
      · cases hok
    · have he : ended = a.answer client t₁ := by simp only [ended, turn, ht, hm]
      have hrec : recalled = (.ok (), t₁) := hm
      rw [hrec] at hi hb ⊢
      rw [he]
      have hleads := a.answer_leads client t₁
      obtain ⟨⟨asked, hasked, hasked'⟩, run, hrun, hrun'⟩ := a.answer_bounds client t₁
      refine ⟨⟨asked, hi ▸ hasked, hasked'⟩, ⟨run, hb ▸ hrun, hrun'⟩, fun hs' => absurd hs hs',
        fun _ _ hstop => ?_, fun _ _ => ⟨hi, hb, hleads⟩, fun _ _ hc calls usage hne hr hreply hends => ?_⟩
      · cases hstop
      · obtain ⟨q, hq, hqr, -, -, hcalls⟩ := hleads.asked hc
        rw [hq, hreply] at hqr
        have hbatched := hcalls calls usage hqr hne
        have hwants : a.Wants client inputs t calls (client.create t₁.client q.request t₁.clock).2.2 :=
          hq ▸ ⟨t₁, usage, _, hs, hm, hc, hne, Prod.ext hreply rfl⟩
        -- The turn does not hang, so the batch has a report.
        obtain ⟨report, hreport⟩ := Option.ne_none_iff_exists'.1 (hwants.hangs_iff.not.1 hends)
        exact (hbatched report hreport).responds hr

end Agent
end ToolAgent
