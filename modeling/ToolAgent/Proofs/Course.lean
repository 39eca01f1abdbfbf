/-
The courses a turn can take, as a relation beside the function `Agent.answer`.

`Agent.Asks` says all an inference can do, `Agent.Batches` what a batch of tool
calls does, and `Agent.Takes` puts them together: one rule for each way in which a
turn ends once memory is done. What a course stores, hands out and asks for is
read off the course alone, so later proofs go by cases on it and never open the
functions again.
-/
import ToolAgent.Turn

namespace ToolAgent

variable {σ : Type}

/-- No list of calls that is accepted is empty. -/
theorem Reply.accepted_nonempty {r : Reply} {calls usage} (h : r.accepted = .ok ⟨.toolCalls calls, usage⟩) :
    calls ≠ [] := by
  rintro rfl
  unfold Reply.accepted at h
  split at h <;> try cases h
  next hne => exact hne _ rfl

theorem Reply.accepted_ok {r : Reply} {x : Inference} (h : r.accepted = .ok x) : r = .result x := by
  unfold Reply.accepted at h
  split at h <;> cases h
  rfl

/-- A breakdown of an inference. -/
inductive Stop.OfClient : Stop → Prop
  | cancelled : OfClient (.error .cancelled)
  | error {e} : OfClient (.error (.client e))
  | panic {payload} : OfClient (.panic payload)

theorem Reply.accepted_stop {r : Reply} {stop} (h : r.accepted = .error stop) : stop.OfClient := by
  unfold Reply.accepted at h
  split at h
  · cases h; exact .panic
  · cases h; exact .cancelled
  · cases h; exact .error
  · cases h; exact .error
  · cases h

namespace Agent

/-- An inference in a state of a turn: none under a cancelled token, else one
request, whose reply is stored if it is accepted. -/
inductive Asks (a : Agent) (client : Client σ) (tools : List ToolOffer) (t : Turn σ) :
    Except Stop Inference × Turn σ → Prop
  | cancelled : t.clock.isCancelled = true → Asks a client tools t (.error (.error .cancelled), t)
  | refused {reply state clock stop} : t.clock.isCancelled = false →
      client.create t.client (a.request tools t) t.clock = (reply, state, clock) →
      reply.accepted = .error stop →
      Asks a client tools t (.error stop, t.inquire (a.request tools t) reply state clock)
  | accepted {reply state clock} {r : Inference} : t.clock.isCancelled = false →
      client.create t.client (a.request tools t) t.clock = (reply, state, clock) →
      reply.accepted = .ok r →
      Asks a client tools t (.ok r, (t.inquire (a.request tools t) reply state clock).store
        (.assistant r.content a.name (some r.usage)))

theorem ask_asks (a : Agent) (client : Client σ) (tools : List ToolOffer) (t : Turn σ) :
    a.Asks client tools t (a.ask client tools t) := by
  cases hc : t.clock.isCancelled with
  | true => simp only [ask, hc, if_true]; exact .cancelled hc
  | false =>
    match hr : client.create t.client (a.request tools t) t.clock with
    | (reply, state, clock) =>
      simp only [ask, hc, hr]
      cases ha : reply.accepted with
      | error stop => exact .refused hc hr ha
      | ok r => exact .accepted hc hr ha

end Agent

/-- A batch of tool calls as the model asked for it, with its results. -/
structure Round where
  calls : List ToolCall
  usage : Usage
  results : List ToolResult

/-- How a turn ends once memory is done. -/
inductive Course where
  /-- The first inference gives nothing. -/
  | unanswered (stop : Stop)
  | told (text : String) (usage : Usage)
  | handedOver (b : Round) (h : Handoff)
  | summarised (b : Round)
  /-- The second inference gives nothing. -/
  | unreflected (b : Round) (stop : Stop)
  | reflected (b : Round) (text : String) (usage : Usage)
  /-- The second inference asks for tools again. -/
  | overreached (b : Round) (calls : List ToolCall) (usage : Usage)

namespace Course

def round? : Course → Option Round
  | .unanswered _ | .told _ _ => none
  | .handedOver b _ | .summarised b | .unreflected b _ | .reflected b _ _ | .overreached b _ _ => some b

end Course

namespace Agent

/-- A message of the model. -/
def uttered (a : Agent) (content : Completion) (usage : Usage) : Message :=
  .assistant content a.name (some usage)

/-- What a batch leaves in the context: the calls, then their results. -/
def exchange (a : Agent) (b : Round) : List Message :=
  [a.uttered (.toolCalls b.calls) b.usage, .toolResults b.results]

end Agent

namespace Course

/-- What a course adds to the context. -/
def stored (a : Agent) : Course → List Message
  | .unanswered _ => []
  | .told text usage => [a.uttered (.text text) usage]
  | .handedOver b _ | .summarised b | .unreflected b _ => a.exchange b
  | .reflected b text usage => a.exchange b ++ [a.uttered (.text text) usage]
  | .overreached b calls usage => a.exchange b ++ [a.uttered (.toolCalls calls) usage]

/-- What a course ends with: a chat message, or the reason to break off. -/
def outcome (a : Agent) : Course → Except Stop ChatMessage
  | .unanswered stop | .unreflected _ stop => .error stop
  | .told text usage | .reflected _ text usage => .ok (a.textReply text usage)
  | .handedOver _ h => .ok (.handoff h.message h.target a.name)
  | .summarised b => .ok (.toolCallSummary (Summary.renderAll a.template b.calls b.results) a.name)
  | .overreached _ calls _ => .error (.error (.reflectionRequestedTools calls.length))

theorem exchange_prefix (a : Agent) {k : Course} {b : Round} (h : k.round? = some b) :
    a.exchange b <+: k.stored a := by
  cases k with
  | unanswered | told => cases h
  | handedOver | summarised | unreflected => cases h; exact List.prefix_rfl
  | reflected | overreached => cases h; exact List.prefix_append _ _

/-- The events of a course. -/
def events (a : Agent) (k : Course) : List Event :=
  match k.round? with
  | none => []
  | some b => [.toolCallRequest b.calls a.name (some b.usage), .toolCallExecution b.results a.name]

end Course

/-- The ending with an outcome, after some events. -/
def Ending.of (outcome : Except Stop ChatMessage) (events : List Event) : Ending :=
  outcome.map fun m => ⟨m, events⟩

@[simp] theorem Ending.of_error (stop : Stop) (events : List Event) :
    Ending.of (.error stop) events = .error stop := rfl

namespace Agent

/-- The first inference asks for tool calls, which are run. -/
inductive Batches (a : Agent) (client : Client σ) (t : Turn σ) : Round → Turn σ → Prop
  | mk {calls usage t₁} : a.Asks client a.registry.offers t (.ok ⟨.toolCalls calls, usage⟩, t₁) →
      Batches a client t ⟨calls, usage, (a.callTools calls usage t₁).1⟩ (a.callTools calls usage t₁).2

/-- The observer is told when a batch names several handoffs. -/
def noteHandoffs (hs : List Handoff) (t : Turn σ) : Turn σ :=
  if hs.tail.isEmpty then t else t.note [.diagnostic (.multipleHandoffs (hs.map (·.target)))]

/-- The course a turn takes once memory is done, and the state it ends in. -/
inductive Takes (a : Agent) (client : Client σ) (t : Turn σ) : Course → Turn σ → Prop
  | unanswered {stop t'} : a.Asks client a.registry.offers t (.error stop, t') →
      Takes a client t (.unanswered stop) t'
  | told {text usage t'} : a.Asks client a.registry.offers t (.ok ⟨.text text, usage⟩, t') →
      Takes a client t (.told text usage) t'
  | handedOver {b t' h more} : a.Batches client t b t' → a.registry.handoffsIn b.calls = h :: more →
      Takes a client t (.handedOver b h) (noteHandoffs (h :: more) t')
  | summarised {b t'} : a.Batches client t b t' → a.registry.handoffsIn b.calls = [] →
      a.reflects = false → Takes a client t (.summarised b) t'
  | unreflected {b t₁ stop t'} : a.Batches client t b t₁ → a.registry.handoffsIn b.calls = [] →
      a.reflects = true → a.Asks client [] t₁ (.error stop, t') →
      Takes a client t (.unreflected b stop) t'
  | reflected {b t₁ text usage t'} : a.Batches client t b t₁ → a.registry.handoffsIn b.calls = [] →
      a.reflects = true → a.Asks client [] t₁ (.ok ⟨.text text, usage⟩, t') →
      Takes a client t (.reflected b text usage) t'
  | overreached {b t₁ calls usage t'} : a.Batches client t b t₁ →
      a.registry.handoffsIn b.calls = [] → a.reflects = true →
      a.Asks client [] t₁ (.ok ⟨.toolCalls calls, usage⟩, t') →
      Takes a client t (.overreached b calls usage) t'

/-! ## Every answer takes a course -/

theorem reflect_takes {a : Agent} {client : Client σ} {t t₁ : Turn σ} {b : Round}
    (hb : a.Batches client t b t₁) (hh : a.registry.handoffsIn b.calls = []) (hr : a.reflects = true) :
    ∃ k, a.Takes client t k (a.reflect client t₁).2 ∧
      (a.reflect client t₁).1 = .of (k.outcome a) (a.reflect client t₁).2.events := by
  have h := a.ask_asks client [] t₁
  unfold reflect
  match he : a.ask client [] t₁ with
  | (.error stop, t') => rw [he] at h; exact ⟨_, .unreflected hb hh hr h, rfl⟩
  | (.ok ⟨.text text, usage⟩, t') => rw [he] at h; exact ⟨_, .reflected hb hh hr h, rfl⟩
  | (.ok ⟨.toolCalls calls, usage⟩, t') => rw [he] at h; exact ⟨_, .overreached hb hh hr h, rfl⟩

theorem conclude_takes {a : Agent} {client : Client σ} {t t₁ : Turn σ} {b : Round}
    (hb : a.Batches client t b t₁) :
    ∃ k, a.Takes client t k (a.conclude client b.calls b.results t₁).2 ∧
      (a.conclude client b.calls b.results t₁).1 =
        .of (k.outcome a) (a.conclude client b.calls b.results t₁).2.events := by
  unfold conclude
  split
  next h more hh => exact ⟨_, .handedOver hb hh, rfl⟩
  next hh =>
    cases hr : a.reflects with
    | true => exact reflect_takes hb hh hr
    | false => exact ⟨_, .summarised hb hh hr, rfl⟩

theorem answer_takes (a : Agent) (client : Client σ) (t : Turn σ) :
    ∃ k, a.Takes client t k (a.answer client t).2 ∧
      (a.answer client t).1 = .of (k.outcome a) (a.answer client t).2.events := by
  have h := a.ask_asks client a.registry.offers t
  unfold answer
  match he : a.ask client a.registry.offers t with
  | (.error stop, t') => rw [he] at h; exact ⟨_, .unanswered h, rfl⟩
  | (.ok ⟨.text text, usage⟩, t') => rw [he] at h; exact ⟨_, .told h, rfl⟩
  | (.ok ⟨.toolCalls calls, usage⟩, t') =>
    rw [he] at h
    exact conclude_takes (b := ⟨calls, usage, (a.callTools calls usage t').1⟩) (.mk h)

/-! ## What a course does to the turn -/

variable {a : Agent} {client : Client σ} {tools : List ToolOffer} {t t' : Turn σ}

theorem Asks.context_error {stop} (h : a.Asks client tools t (.error stop, t')) :
    t'.context = t.context := by
  cases h <;> rfl

theorem Asks.stop {stop} (h : a.Asks client tools t (.error stop, t')) : stop.OfClient := by
  cases h with
  | cancelled _ => exact .cancelled
  | refused _ _ hr => exact Reply.accepted_stop hr

theorem Asks.context_ok {r : Inference} (h : a.Asks client tools t (.ok r, t')) :
    t'.context = t.context.addAll [a.uttered r.content r.usage] := by
  cases h; rfl

theorem Asks.events {r} (h : a.Asks client tools t (r, t')) : t'.events = t.events := by
  cases h <;> rfl

/-- An inference asks the client once, unless the token is cancelled. -/
theorem Asks.inquiries {r} (h : a.Asks client tools t (r, t')) :
    (t'.inquiries = t.inquiries ∧ r = .error (.error .cancelled)) ∨
    ∃ q : Inquiry, t'.inquiries = t.inquiries ++ [q] ∧ q.context = t.context ∧
      q.request = a.request tools t ∧ q.reply.accepted = r := by
  cases h with
  | cancelled _ => exact .inl ⟨rfl, rfl⟩
  | refused _ _ hr => exact .inr ⟨_, rfl, rfl, rfl, hr⟩
  | accepted _ _ hr => exact .inr ⟨_, rfl, rfl, rfl, hr⟩

theorem Asks.inquiries_ok {r : Inference} (h : a.Asks client tools t (.ok r, t')) :
    ∃ q : Inquiry, t'.inquiries = t.inquiries ++ [q] ∧ q.context = t.context ∧
      q.request = a.request tools t ∧ q.reply.accepted = .ok r := by
  rcases h.inquiries with ⟨-, he⟩ | hq
  · cases he
  · exact hq

variable {b : Round}

theorem Batches.nonempty (h : a.Batches client t b t') : b.calls ≠ [] := by
  obtain ⟨ha⟩ := h
  obtain ⟨q, -, -, -, hr⟩ := ha.inquiries_ok
  exact Reply.accepted_nonempty hr

theorem Batches.results (h : a.Batches client t b t') :
    ∃ clock, b.results = (a.registry.execute clock b.calls).results := by
  obtain ⟨-⟩ := h
  exact ⟨_, rfl⟩

/-- The client replied with the calls, and they were run from the clock that it left. -/
theorem Batches.replied (h : a.Batches client t b t') :
    ∃ q : Inquiry, t'.inquiries = t.inquiries ++ [q] ∧ q.context = t.context ∧
      q.reply = .result ⟨.toolCalls b.calls, b.usage⟩ ∧
      b.results = (a.registry.execute (client.create t.client q.request q.clock).2.2 b.calls).results := by
  obtain @⟨calls, usage, t₁, ha⟩ := h
  cases ha with
  | @accepted reply state clock _ _ hr hreply =>
    refine ⟨⟨t.context, t.clock, a.request a.registry.offers t, reply⟩, rfl, rfl, Reply.accepted_ok hreply, ?_⟩
    rw [hr]
    rfl

theorem Batches.context (h : a.Batches client t b t') : t'.context = t.context.addAll (a.exchange b) := by
  obtain @⟨calls, usage, t₁, ha⟩ := h
  have hs : (a.callTools calls usage t₁).2.context =
      t₁.context.addAll [.toolResults (a.callTools calls usage t₁).1] := rfl
  rw [hs, ha.context_ok, Context.addAll_addAll]
  rfl

theorem Batches.events (h : a.Batches client t b t') :
    t'.events = t.events ++
      [.toolCallRequest b.calls a.name (some b.usage), .toolCallExecution b.results a.name] := by
  obtain ⟨ha⟩ := h
  rw [← ha.events]
  simp [callTools, Turn.emit, Turn.note, Turn.store]

theorem Batches.inquiries (h : a.Batches client t b t') :
    ∃ q : Inquiry, t'.inquiries = t.inquiries ++ [q] ∧ q.context = t.context ∧
      q.request = a.request a.registry.offers t ∧
      q.reply.accepted = .ok ⟨.toolCalls b.calls, b.usage⟩ := by
  obtain ⟨ha⟩ := h
  exact ha.inquiries_ok

theorem noteHandoffs_context (hs : List Handoff) (t : Turn σ) : (noteHandoffs hs t).context = t.context := by
  unfold noteHandoffs; split <;> rfl

theorem noteHandoffs_events (hs : List Handoff) (t : Turn σ) : (noteHandoffs hs t).events = t.events := by
  unfold noteHandoffs; split <;> rfl

theorem noteHandoffs_inquiries (hs : List Handoff) (t : Turn σ) :
    (noteHandoffs hs t).inquiries = t.inquiries := by
  unfold noteHandoffs; split <;> rfl

variable {k : Course}

theorem Takes.batch (h : a.Takes client t k t') (hk : k.round? = some b) : ∃ t₁, a.Batches client t b t₁ := by
  cases h with
  | unanswered _ | told _ => cases hk
  | handedOver hb _ | summarised hb _ _ => cases hk; exact ⟨_, hb⟩
  | unreflected hb _ _ _ | reflected hb _ _ _ | overreached hb _ _ _ => cases hk; exact ⟨_, hb⟩

/-- A turn only adds to the context once memory is done, and what it adds is
settled by its course. -/
theorem Takes.context (h : a.Takes client t k t') : t'.context = t.context.addAll (k.stored a) := by
  cases h with
  | unanswered ha => simpa [Course.stored] using ha.context_error
  | told ha => exact ha.context_ok
  | handedOver hb _ => rw [noteHandoffs_context]; exact hb.context
  | summarised hb _ _ => exact hb.context
  | unreflected hb _ _ ha => rw [ha.context_error]; exact hb.context
  | reflected hb _ _ ha | overreached hb _ _ ha =>
    rw [ha.context_ok, hb.context, Context.addAll_addAll]; rfl

theorem Takes.events (h : a.Takes client t k t') : t'.events = t.events ++ k.events a := by
  cases h with
  | unanswered ha | told ha => simpa [Course.events, Course.round?] using ha.events
  | handedOver hb _ => rw [noteHandoffs_events]; exact hb.events
  | summarised hb _ _ => exact hb.events
  | unreflected hb _ _ ha | reflected hb _ _ ha | overreached hb _ _ ha =>
    rw [ha.events]; exact hb.events

/-- An inquiry shows the client the system message and what it may see of the context. -/
def Shows (a : Agent) (q : Inquiry) : Prop := q.request.messages = a.systemMessages ++ q.context.visible

theorem shows_of_request {q : Inquiry} (hc : q.context = t.context) (hr : q.request = a.request tools t) :
    a.Shows q := by
  rw [Shows, hr, hc]; rfl

theorem Asks.shown {r} (h : a.Asks client tools t (r, t')) :
    ∃ qs : List Inquiry, t'.inquiries = t.inquiries ++ qs ∧ (∀ q ∈ qs, a.Shows q) ∧
      qs.map (·.context) <+: [t.context] := by
  rcases h.inquiries with ⟨he, -⟩ | ⟨q, he, hc, hr, -⟩
  · exact ⟨[], by simp [he]⟩
  · exact ⟨[q], he, by simpa using shows_of_request hc hr, by simp [hc]⟩

theorem Batches.shown (h : a.Batches client t b t') :
    ∃ q : Inquiry, t'.inquiries = t.inquiries ++ [q] ∧ a.Shows q ∧ q.context = t.context := by
  obtain ⟨q, he, hc, hr, -⟩ := h.inquiries
  exact ⟨q, he, shows_of_request hc hr, hc⟩

/-- The client is asked at most twice: first as memory left the context, and then
with the calls and their results behind it. -/
theorem Takes.inquiries (h : a.Takes client t k t') :
    ∃ qs : List Inquiry, t'.inquiries = t.inquiries ++ qs ∧ (∀ q ∈ qs, a.Shows q) ∧
      qs.map (·.context) <+:
        t.context :: (k.round?.map fun b => t.context.addAll (a.exchange b)).toList := by
  cases h with
  | unanswered ha | told ha => exact ha.shown
  | handedOver hb _ =>
    obtain ⟨q, he, hs, hc⟩ := hb.shown
    rw [noteHandoffs_inquiries]
    exact ⟨[q], he, by simpa using hs, by simp [hc]⟩
  | summarised hb _ _ =>
    obtain ⟨q, he, hs, hc⟩ := hb.shown
    exact ⟨[q], he, by simpa using hs, by simp [hc]⟩
  | unreflected hb _ _ ha | reflected hb _ _ ha | overreached hb _ _ ha =>
    obtain ⟨q, he, hs, hc⟩ := hb.shown
    obtain ⟨qs, he', hs', hp⟩ := ha.shown
    refine ⟨q :: qs, by simp [he', he], by simpa using ⟨hs, hs'⟩, ?_⟩
    -- The second inquiry, if it is made, starts from what the batch left.
    simpa [hc, hb.context, Course.round?] using hp

/-- Asked twice, the client has replied with the calls of a batch, and the second time it has
been asked, without tools, once they were run. -/
theorem Takes.second {q₁ q₂ : Inquiry} (h : a.Takes client t k t')
    (hq : t'.inquiries = t.inquiries ++ [q₁, q₂]) :
    ∃ b t₁, a.Batches client t b t₁ ∧ k.round? = some b ∧
      q₁.reply.accepted = .ok ⟨.toolCalls b.calls, b.usage⟩ ∧ q₂.request = a.request [] t₁ := by
  cases h with
  | unanswered ha | told ha =>
    rcases ha.inquiries with ⟨he, -⟩ | ⟨q, he, -⟩
    · simp [he] at hq
    · simp [he] at hq
  | handedOver hb _ =>
    obtain ⟨q, he, -⟩ := hb.inquiries
    simp [noteHandoffs_inquiries, he] at hq
  | summarised hb _ _ =>
    obtain ⟨q, he, -⟩ := hb.inquiries
    simp [he] at hq
  | unreflected hb _ _ ha | reflected hb _ _ ha | overreached hb _ _ ha =>
    obtain ⟨q, he, -, -, hr⟩ := hb.inquiries
    rcases ha.inquiries with ⟨he', -⟩ | ⟨q', he', -, hr', -⟩
    · simp [he', he] at hq
    · obtain ⟨rfl, rfl⟩ : q = q₁ ∧ q' = q₂ := by simpa [he', he] using hq
      exact ⟨_, _, hb, rfl, hr, hr'⟩

end Agent
end ToolAgent
