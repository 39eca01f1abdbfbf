/-
What the model says in a turn, and what it is stored as.

The replies to the requests of a course are its answers (`Course.answers`), and behind them at
most one more, which makes the turn break off (`Takes.replies`). The answers are stored, in their
order, and nothing else is stored as a message of the model (`Course.stored_answers`). The state
of the client changes with its replies only (`Client.Serves`).
-/
import ToolAgent.Proofs.Turn

namespace ToolAgent

variable {σ : Type}

/-- A message of the model. -/
def Message.isAnswer : Message → Bool
  | .assistant .. => true
  | _ => false

theorem Message.isAnswer_of_isNote {m : Message} (h : m.isNote = true) : m.isAnswer = false := by
  cases m <;> simp_all [Message.isNote, Message.isAnswer]

theorem Message.no_answers_of_notes {ms : List Message} (h : ∀ m ∈ ms, m.isNote = true) :
    ms.filter Message.isAnswer = [] := by
  rw [List.filter_eq_nil_iff]
  intro m hm
  simp [Message.isAnswer_of_isNote (h m hm)]

/-- The model asks for tool calls, but for none. -/
def Inference.isBlank : Inference → Bool
  | ⟨.toolCalls [], _⟩ => true
  | _ => false

/-- What the model replied, if it did. -/
def Reply.result? : Reply → Option Inference
  | .result r => some r
  | _ => none

/-- The answer in a reply, if a turn goes on with it. -/
def Reply.answer? (r : Reply) : Option Inference := r.accepted.toOption

/-- A turn goes on with all that the model replies, unless that is blank. -/
theorem Reply.answer?_eq (r : Reply) : r.answer? = r.result?.filter (!·.isBlank) := by
  match r with
  | .panic _ => rfl
  | .error e => cases e <;> rfl
  | .result ⟨.text _, _⟩ => rfl
  | .result ⟨.toolCalls [], _⟩ => rfl
  | .result ⟨.toolCalls (_ :: _), _⟩ => rfl

theorem replies_of_accepted : ∀ {qs : List Inquiry} {answers : List Inference},
    qs.map (·.reply.accepted) = answers.map .ok → qs.map (·.reply) = answers.map .result
  | [], [], _ => rfl
  | [], _ :: _, h | _ :: _, [], h => by simp at h
  | q :: qs, r :: answers, h => by
    obtain ⟨hq, hqs⟩ := List.cons.inj h
    rw [List.map_cons, Reply.accepted_ok hq, replies_of_accepted hqs, List.map_cons]

/-- How an answer of the model is stored. -/
def Agent.kept (a : Agent) (r : Inference) : Message := a.uttered r.content r.usage

/-! ## Courses -/

namespace Course

/-- The answers of the model that a course takes. -/
def answers : Course → List Inference
  | .unanswered _ => []
  | .told text usage => [⟨.text text, usage⟩]
  | .handedOver b _ | .summarised b | .unreflected b _ => [⟨.toolCalls b.calls, b.usage⟩]
  | .reflected b text usage => [⟨.toolCalls b.calls, b.usage⟩, ⟨.text text, usage⟩]
  | .overreached b calls usage => [⟨.toolCalls b.calls, b.usage⟩, ⟨.toolCalls calls, usage⟩]

/-- The inference that gives nothing, by its reason. -/
def stop? : Course → Option Stop
  | .unanswered stop | .unreflected _ stop => some stop
  | _ => none

theorem stored_answers (a : Agent) (k : Course) :
    (k.stored a).filter Message.isAnswer = k.answers.map a.kept := by
  cases k <;> rfl

theorem stop?_of_outcome {a : Agent} {k : Course} {m : ChatMessage} (h : k.outcome a = .ok m) :
    k.stop? = none := by
  cases k <;> first | rfl | cases h

end Course

namespace Agent

variable {a : Agent} {client : Client σ} {tools : List ToolOffer} {t t' : Turn σ} {k : Course} {b : Round}

/-- The replies in a course are its answers, and one more if that makes it break off. Nothing
is asked, though, where it breaks off because it is cancelled. -/
theorem Takes.replies (h : a.Takes client t k t') :
    ∃ (qs : List Inquiry) (broken : List Stop), t'.inquiries = t.inquiries ++ qs ∧
      qs.map (·.reply.accepted) = k.answers.map .ok ++ broken.map .error ∧
      (broken = k.stop?.toList ∨ broken = [] ∧ k.stop? = some (.error .cancelled)) := by
  cases h with
  | unanswered ha =>
    rcases ha.inquiries with ⟨he, hstop⟩ | ⟨q, he, -, -, hr⟩
    · cases hstop
      exact ⟨[], [], by simp [he], rfl, .inr ⟨rfl, rfl⟩⟩
    · exact ⟨[q], [_], he, by simp [Course.answers, hr], .inl rfl⟩
  | told ha =>
    obtain ⟨q, he, -, -, hr⟩ := ha.inquiries_ok
    exact ⟨[q], [], he, by simp [Course.answers, hr], .inl rfl⟩
  | handedOver hb _ =>
    obtain ⟨q, he, -, -, hr⟩ := hb.inquiries
    exact ⟨[q], [], (noteHandoffs_inquiries _ _).trans he, by simp [Course.answers, hr], .inl rfl⟩
  | summarised hb _ _ =>
    obtain ⟨q, he, -, -, hr⟩ := hb.inquiries
    exact ⟨[q], [], he, by simp [Course.answers, hr], .inl rfl⟩
  | unreflected hb _ _ ha =>
    obtain ⟨q, he, -, -, hr⟩ := hb.inquiries
    rcases ha.inquiries with ⟨he', hstop⟩ | ⟨q', he', -, -, hr'⟩
    · cases hstop
      exact ⟨[q], [], he'.trans he, by simp [Course.answers, hr], .inr ⟨rfl, rfl⟩⟩
    · exact ⟨[q, q'], [_], by simp [he', he], by simp [Course.answers, hr, hr'], .inl rfl⟩
  | reflected hb _ _ ha | overreached hb _ _ ha =>
    obtain ⟨q, he, -, -, hr⟩ := hb.inquiries
    obtain ⟨q', he', -, -, hr'⟩ := ha.inquiries_ok
    exact ⟨[q, q'], [], by simp [he', he], by simp [Course.answers, hr, hr'], .inl rfl⟩

theorem Takes.answers (h : a.Takes client t k t') :
    ∃ qs : List Inquiry, t'.inquiries = t.inquiries ++ qs ∧ qs.filterMap (·.reply.answer?) = k.answers := by
  obtain ⟨qs, broken, hq, hr, -⟩ := h.replies
  refine ⟨qs, hq, ?_⟩
  have hsplit : qs.filterMap (·.reply.answer?) = (qs.map (·.reply.accepted)).filterMap Except.toOption := by
    rw [List.filterMap_map]
    rfl
  rw [hsplit, hr, List.filterMap_append]
  simp [List.filterMap_map, Function.comp_def, Except.toOption]

/-- A course that ends with a chat message has had nothing but its answers. -/
theorem Takes.results {m : ChatMessage} (h : a.Takes client t k t') (ho : k.outcome a = .ok m) :
    ∃ qs : List Inquiry, t'.inquiries = t.inquiries ++ qs ∧ qs.map (·.reply) = k.answers.map .result := by
  obtain ⟨qs, broken, hq, hr, hbroken⟩ := h.replies
  have hnone : broken = [] := by
    rw [Course.stop?_of_outcome ho] at hbroken
    rcases hbroken with hb | ⟨hb, -⟩ <;> exact hb
  rw [hnone, List.map_nil, List.append_nil] at hr
  exact ⟨qs, hq, replies_of_accepted hr⟩

end Agent

/-! ## The state of the client -/

/-- A client in one state replies to requests, one after the other, and is left in another state. -/
inductive Client.Serves (client : Client σ) : σ → List Inquiry → σ → Prop
  | nil {s} : Serves client s [] s
  | cons {s s' s'' clock q qs} : client.create s q.request q.clock = (q.reply, s', clock) →
      Serves client s' qs s'' → Serves client s (q :: qs) s''

theorem Client.Serves.append {client : Client σ} {s s' s'' : σ} {qs qs' : List Inquiry}
    (h : client.Serves s qs s') (h' : client.Serves s' qs' s'') : client.Serves s (qs ++ qs') s'' := by
  induction h with
  | nil => exact h'
  | cons hq _ ih => exact .cons hq (ih h')

namespace Agent

variable {a : Agent} {client : Client σ} {tools : List ToolOffer} {t t' : Turn σ} {k : Course} {b : Round}

theorem Asks.serves {r} (h : a.Asks client tools t (r, t')) :
    ∃ qs, t'.inquiries = t.inquiries ++ qs ∧ client.Serves t.client qs t'.client := by
  cases h with
  | cancelled _ => exact ⟨[], by simp, .nil⟩
  | refused _ hr _ | accepted _ hr _ => exact ⟨[_], rfl, .cons hr .nil⟩

theorem Batches.serves (h : a.Batches client t b t') :
    ∃ qs, t'.inquiries = t.inquiries ++ qs ∧ client.Serves t.client qs t'.client := by
  obtain ⟨ha⟩ := h
  exact ha.serves

theorem noteHandoffs_client (hs : List Handoff) (t : Turn σ) : (noteHandoffs hs t).client = t.client := by
  unfold noteHandoffs; split <;> rfl

theorem Takes.serves (h : a.Takes client t k t') :
    ∃ qs, t'.inquiries = t.inquiries ++ qs ∧ client.Serves t.client qs t'.client := by
  cases h with
  | unanswered ha | told ha => exact ha.serves
  | handedOver hb _ =>
    rw [noteHandoffs_inquiries, noteHandoffs_client]
    exact hb.serves
  | summarised hb _ _ => exact hb.serves
  | unreflected hb _ _ ha | reflected hb _ _ ha | overreached hb _ _ ha =>
    obtain ⟨qs, hq, hs⟩ := hb.serves
    obtain ⟨qs', hq', hs'⟩ := ha.serves
    exact ⟨qs ++ qs', by simp [hq', hq], hs.append hs'⟩

/-! ## Whole turns -/

variable {inputs : List ChatMessage} {ended : Ending × Turn σ}

theorem Goes.serves (h : a.Goes client inputs t ended) (ht : t.inquiries = []) :
    client.Serves t.client ended.2.inquiries ended.2.client := by
  rcases h.course ht with ⟨-, -, -, hnone, hclient⟩ | ⟨t₁, k, hnone, hclient, hk, -⟩
  · rw [hnone, hclient]
    exact .nil
  · obtain ⟨qs, hq, hs⟩ := hk.serves
    rw [hq, hnone]
    exact hclient ▸ hs

/-- What a turn adds to the messages of the model are the answers it got, in their order. -/
theorem Goes.answers (h : a.Goes client inputs t ended) (ht : t.inquiries = [])
    (hm : ∀ p ∈ a.memory, p.AddsNotes) :
    ended.2.context.messages.filter Message.isAnswer = t.context.messages.filter Message.isAnswer ++
      (ended.2.inquiries.filterMap (·.reply.answer?)).map a.kept := by
  obtain ⟨notes, hn, hc⟩ := a.given_notes inputs t hm
  have hi := a.augment_inquiries a.memory (t.given inputs)
  cases h with
  | refused _ => simp [ht]
  | forgot _ ha =>
    rw [ha] at hi hc
    rw [hc, hi.trans ht]
    simp [Message.no_answers_of_notes hn]
  | @answered t₁ k t' _ ha hk =>
    rw [ha] at hi hc
    obtain ⟨qs, hq, hanswers⟩ := hk.answers
    have hnone : t₁.inquiries = [] := hi.trans ht
    rw [hk.context, hc, hq, hnone, List.nil_append, hanswers, ← k.stored_answers a]
    simp [Message.no_answers_of_notes hn]

end Agent
end ToolAgent
