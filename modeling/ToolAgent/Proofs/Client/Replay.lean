/-
Conversations with a replay.

A replay hands its answers out one after the other, and records each request it gets
(`Replay.Plays`). A turn asks only under a token that is not cancelled, stores what it is
answered, and tells when no answer was left. So over a whole run no answer is lost, repeated or
put out of order, however the turns end (`run_replays`).
-/
import ToolAgent.Proofs.Conversation.Answers
import ToolAgent.Proofs.Kinds
import ToolAgent.Proofs.Turn.Cancelled

namespace ToolAgent

variable {σ : Type}

/-- No answer was left. -/
def Stop.ranDry : Stop → Bool
  | .error (.client .exhausted) => true
  | _ => false

/-- Breaks off because no answer was left. -/
def ranDry {α : Type} : Except Stop α → Bool
  | .error stop => stop.ranDry
  | .ok _ => false

/-! ## The replay -/

/-- What a replay hands out and records over some requests, which leave it as another. -/
structure Replay.Plays (s : Replay) (qs : List Inquiry) (s' : Replay) : Prop where
  queue : s.queue = qs.filterMap (·.reply.result?) ++ s'.queue
  requests : s'.requests = s.requests ++ qs.map (·.request)
  replies : ∀ q ∈ qs, (∃ r, q.reply = .result r) ∨ q.reply = .error .exhausted

theorem Client.Serves.plays {capabilities : Capabilities} {s s' : Replay} {qs : List Inquiry}
    (h : (Replay.client capabilities).Serves s qs s') (hc : ∀ q ∈ qs, q.clock.isCancelled = false) :
    s.Plays qs s' := by
  induction h with
  | nil => exact ⟨rfl, by simp, nofun⟩
  | @cons s s₁ s' clock q qs hq _ ih =>
    obtain ⟨hqueue, hrequests, hreplies⟩ := ih fun q' hq' => hc q' (List.mem_cons_of_mem q hq')
    have hcreate : (Replay.client capabilities).create s q.request q.clock = s.create q.request q.clock := rfl
    rw [hcreate, Replay.create, if_neg (by simp [hc q])] at hq
    split at hq
    next hempty =>
      obtain ⟨hreply, rfl, -⟩ := by simpa using hq
      refine ⟨?_, by simp [hrequests], fun q' hq' => ?_⟩
      · simpa [← hreply, hempty, Reply.result?] using hqueue
      · rcases List.mem_cons.1 hq' with rfl | hq'
        · exact .inr hreply.symm
        · exact hreplies q' hq'
    next answer queue hnext =>
      obtain ⟨hreply, rfl, -⟩ := by simpa using hq
      refine ⟨?_, by simp [hrequests], fun q' hq' => ?_⟩
      · simpa [← hreply, hnext, Reply.result?] using hqueue
      · rcases List.mem_cons.1 hq' with rfl | hq'
        · exact .inl ⟨answer, hreply.symm⟩
        · exact hreplies q' hq'

theorem ranDry_result (r : Inference) : ranDry (Reply.result r).accepted = false := by
  match r with
  | ⟨.text _, _⟩ => rfl
  | ⟨.toolCalls [], _⟩ => rfl
  | ⟨.toolCalls (_ :: _), _⟩ => rfl

/-- Each request takes an answer or finds none. -/
theorem length_of_replies : ∀ {qs : List Inquiry},
    (∀ q ∈ qs, (∃ r, q.reply = .result r) ∨ q.reply = .error .exhausted) →
      qs.length = (qs.filterMap (·.reply.result?)).length + qs.countP (ranDry ·.reply.accepted)
  | [], _ => rfl
  | q :: qs, h => by
    have hrest := length_of_replies fun q' hq' => h q' (List.mem_cons_of_mem q hq')
    rcases h q (by simp) with ⟨r, hr⟩ | hr
    · simp only [List.length_cons, List.filterMap_cons, List.countP_cons, hr, Reply.result?, ranDry_result, hrest,
        Bool.false_eq_true, if_false]
      omega
    · have hdry : ranDry (Reply.error .exhausted).accepted = true := rfl
      simp only [List.length_cons, List.filterMap_cons, List.countP_cons, hr, Reply.result?, hdry, hrest, if_true]
      omega

/-! ## Turns -/

theorem Course.ranDry_outcome (a : Agent) (k : Course) : ranDry (k.outcome a) = k.stop?.any Stop.ranDry := by
  cases k <;> rfl

theorem Ending.ranDry_of (outcome : Except Stop ChatMessage) (events : List Event) :
    ranDry (Ending.of outcome events) = ranDry outcome := by
  cases outcome <;> rfl

/-- Only a client that was cancelled makes a turn break off as cancelled. -/
theorem Reply.eq_cancelled {r : Reply} (h : r.accepted = .error (.error .cancelled)) : r = .error .cancelled := by
  rcases r.cases with ⟨stop, hb⟩ | ⟨text, usage, rfl⟩ | ⟨calls, usage, rfl, hne⟩
  · rw [hb.accepted] at h
    cases h
    cases hb
    rfl
  · cases h
  · rw [accepted_calls usage hne] at h
    cases h

namespace Agent

variable {a : Agent} {client : Client σ} {t t' : Turn σ} {k : Course} {inputs : List ChatMessage}
  {ended : Ending × Turn σ}

/-- A turn finds no answer once at most, and that ends it. -/
theorem Takes.countP_ranDry (h : a.Takes client t k t') : ∃ qs : List Inquiry, t'.inquiries = t.inquiries ++ qs ∧
    qs.countP (ranDry ·.reply.accepted) = (ranDry (k.outcome a)).toNat := by
  obtain ⟨qs, broken, hq, hr, hbroken⟩ := h.replies
  refine ⟨qs, hq, ?_⟩
  have hcount : qs.countP (ranDry ·.reply.accepted) =
      (qs.map (·.reply.accepted)).countP ranDry := by
    rw [List.countP_map]
    rfl
  have hok : (k.answers.map (Except.ok (ε := Stop))).countP ranDry = 0 := by
    simp [List.countP_eq_zero, ranDry]
  rw [hcount, hr, List.countP_append, hok, Nat.zero_add, k.ranDry_outcome a]
  rcases hbroken with rfl | ⟨rfl, hstop⟩
  · cases k.stop? with
    | some stop => cases hdry : stop.ranDry <;> simp [ranDry, hdry]
    | none => rfl
  · rw [hstop]
    rfl

theorem Goes.countP_ranDry (h : a.Goes client inputs t ended) (ht : t.inquiries = []) :
    ended.2.inquiries.countP (ranDry ·.reply.accepted) = (ranDry ended.1).toNat := by
  rcases h.course ht with ⟨stop, hstop, he, hnone, -⟩ | ⟨t₁, k, hnone, -, hk, he⟩
  · rw [he, hnone]
    rcases hstop with rfl | hm
    · rfl
    · cases hm <;> rfl
  · obtain ⟨qs, hq, hdry⟩ := hk.countP_ranDry
    rw [hq, hnone, List.nil_append, hdry, he, Ending.ranDry_of]

/-- A turn that is cut off, and not by its client, has got calls for its request if it made one. -/
theorem Takes.cutOff (h : a.Takes client t k t') (ht : t.inquiries = [])
    (hr : ∀ q ∈ t'.inquiries, q.reply ≠ .error .cancelled) (hk : k.outcome a = .error (.error .cancelled)) :
    t'.inquiries.length ≤ 1 ∧
      ∀ q ∈ t'.inquiries, ∃ calls usage, calls ≠ [] ∧ q.reply = .result ⟨.toolCalls calls, usage⟩ := by
  cases h with
  | unanswered ha =>
    cases hk
    rcases ha.inquiries with ⟨he, -⟩ | ⟨q, he, -, -, hq⟩
    · simp [he, ht]
    · exact absurd (Reply.eq_cancelled hq) (hr q (by simp [he]))
  | unreflected hb _ _ ha =>
    cases hk
    obtain ⟨q, he, -, -, hq⟩ := hb.inquiries
    rcases ha.inquiries with ⟨he', -⟩ | ⟨q', he', -, -, hq'⟩
    · rw [he', he, ht]
      refine ⟨Nat.le_refl 1, fun x hx => ?_⟩
      obtain rfl := List.mem_singleton.1 hx
      exact ⟨_, _, hb.nonempty, Reply.accepted_ok hq⟩
    · exact absurd (Reply.eq_cancelled hq') (hr q' (by simp [he']))
  | told | handedOver | summarised | reflected | overreached => cases hk

theorem Goes.cutOff (h : a.Goes client inputs t ended) (ht : t.inquiries = [])
    (hr : ∀ q ∈ ended.2.inquiries, q.reply ≠ .error .cancelled) (he : ended.1 = .error (.error .cancelled)) :
    ended.2.inquiries.length ≤ 1 ∧
      ∀ q ∈ ended.2.inquiries, ∃ calls usage, calls ≠ [] ∧ q.reply = .result ⟨.toolCalls calls, usage⟩ := by
  rcases h.course ht with ⟨-, -, -, hnone, -⟩ | ⟨t₁, k, hnone, -, hk, hend⟩
  · simp [hnone]
  · exact hk.cutOff hnone hr (Ending.of_eq_error.1 (hend.symm.trans he))

end Agent

/-! ## Runs -/

namespace Conversation

variable {a : Agent} {client : Client σ}

/-- Every turn of a run has gone in one of the ways of a turn. -/
theorem run_goes (a : Agent) (client : Client σ) (window : Window) (state : σ) (ops : List Operation) :
    ∀ e ∈ ((start window state).run a client ops).turns, ∃ (memory : List Provider) (inputs : List ChatMessage)
      (t : Turn σ), t.inquiries = [] ∧ Agent.Goes { a with memory := memory } client inputs t e := by
  intro e he
  have hlog : LogsTurns a client (start window state) := fun e he => nomatch he
  obtain ⟨s, memory, now, inputs, token, rfl⟩ := hlog.run e (mem_turns.1 he)
  exact ⟨memory, inputs, _, rfl, Agent.turn_goes _ _ _ _⟩

theorem countP_inquiries : ∀ {turns : List (Ending × Turn σ)},
    (∀ e ∈ turns, e.2.inquiries.countP (ranDry ·.reply.accepted) = (ranDry e.1).toNat) →
      (turns.flatMap (·.2.inquiries)).countP (ranDry ·.reply.accepted) = turns.countP (ranDry ·.1)
  | [], _ => rfl
  | e :: turns, h => by
    rw [List.flatMap_cons, List.countP_append, h e (by simp), List.countP_cons,
      countP_inquiries fun e' he' => h e' (List.mem_cons_of_mem e he'), Nat.add_comm]
    cases ranDry e.1 <;> rfl

/-- **No answer is lost.** Whatever turns have been taken with a replay, and however they have ended,
what has been handed out and what is left is what there was. The messages of the model that are
stored are just what has been handed out, in that order, but for blank answers. The replay has
recorded a request for each answer and for each turn that found none left. A turn asks only as long
as it is not cancelled; so one that was cut off has asked once at most, and got calls. -/
theorem run_replays (a : Agent) (capabilities : Capabilities) (window : Window) (queue : List Inference)
    (ops : List Operation) (hops : ∀ o ∈ ops, o.AddsNotes ∧ o.isSteady = true) :
    let c := (start window (Replay.ofList queue)).run a (Replay.client capabilities) ops
    let replay := c.session.client
    let taken := c.inquiries.filterMap (·.reply.result?)
    queue = taken ++ replay.queue ∧
    c.context.messages.filter Message.isAnswer =
      (taken.filter (!·.isBlank)).map (fun r => .assistant r.content a.name (some r.usage)) ∧
    replay.requests = c.inquiries.map (·.request) ∧
    replay.requests.length = taken.length + c.turns.countP (ranDry ·.1) ∧
    (∀ q ∈ c.inquiries, q.clock.isCancelled = false) ∧
    ∀ e ∈ c.turns, e.1 = .error (.error .cancelled) → e.2.inquiries.length ≤ 1 ∧
      ∀ q ∈ e.2.inquiries, ∃ calls usage, calls ≠ [] ∧ q.reply = .result ⟨.toolCalls calls, usage⟩ := by
  intro c replay taken
  have hgoes := run_goes a (Replay.client capabilities) window (Replay.ofList queue) ops
  have hclock : ∀ q ∈ c.inquiries, q.clock.isCancelled = false := by
    intro q hq
    obtain ⟨e, he, hqe⟩ := List.mem_flatMap.1 hq
    obtain ⟨memory, inputs, t, ht, hg⟩ := hgoes e he
    exact (hg.heeds ht hqe).1
  have hserves : (Replay.client capabilities).Serves (Replay.ofList queue) c.inquiries replay := run_serves ops .nil
  have hplays : (Replay.ofList queue).Plays c.inquiries replay := hserves.plays hclock
  have hrequests : replay.requests = c.inquiries.map (·.request) := hplays.requests
  refine ⟨hplays.queue, ?_, hrequests, ?_, hclock, fun e he hcancelled => ?_⟩
  · have hstored : StoresAnswers a c := run_answers hops (.start a window (Replay.ofList queue))
    have hkept : c.inquiries.filterMap (·.reply.answer?) = taken.filter (!·.isBlank) := by
      simp only [taken, List.filter_filterMap, Reply.answer?_eq]
    rw [← hkept]
    exact hstored
  · have hdry : c.inquiries.countP (ranDry ·.reply.accepted) = c.turns.countP (ranDry ·.1) := by
      refine countP_inquiries fun e he => ?_
      obtain ⟨memory, inputs, t, ht, hg⟩ := hgoes e he
      exact hg.countP_ranDry ht
    rw [hrequests, List.length_map, length_of_replies hplays.replies, hdry]
  · obtain ⟨memory, inputs, t, ht, hg⟩ := hgoes e he
    refine hg.cutOff ht (fun q hq hr => ?_) hcancelled
    rcases hplays.replies q (List.mem_flatMap.2 ⟨e, he, hq⟩) with ⟨r, hr'⟩ | hr'
    · rw [hr] at hr'; cases hr'
    · rw [hr] at hr'; cases hr'

/-- A turn that reflects, one that is cancelled before it begins, one that gets a blank answer, and
one for which none is left. -/
theorem forecaster_replays :
    let queue : List Inference := [⟨.toolCalls [⟨"1", "look", "null"⟩], .none⟩, ⟨.text "Rain.", ⟨7, 1⟩⟩,
      ⟨.toolCalls [], .none⟩]
    let remark : List ChatMessage := [.text "Weather?" "user" none]
    let ops : List Operation := [.turns Agent.forecaster.memory 0 [(remark, .never), (remark, .before)], .save,
      .turns Agent.forecaster.memory 0 [(remark, .never), (remark, .never)]]
    let c := (start .all (.ofList queue)).run .forecaster (Replay.client .usual) ops
    (∀ o ∈ ops, o.AddsNotes ∧ o.isSteady = true) ∧
    (∃ e ∈ c.turns, e.1 = .error (.error .cancelled) ∧ e.2.inquiries.length ≤ 1) ∧
    c.session.client.requests.length = 3 + 1 ∧
    c.context.messages.filter Message.isAnswer =
      [.assistant (.toolCalls [⟨"1", "look", "null"⟩]) "forecaster" (some .none),
        .assistant (.text "Rain.") "forecaster" (some ⟨7, 1⟩)] := by
  intro queue remark ops c
  have hops : ∀ o ∈ ops, o.AddsNotes ∧ o.isSteady = true := by
    simpa [ops, Operation.AddsNotes, Operation.isSteady] using Agent.forecaster_addsNotes
  obtain ⟨hqueue, hstored, -, hlength, -, hcancelled⟩ := run_replays .forecaster .usual .all queue ops hops
  have htaken : c.inquiries.filterMap (·.reply.result?) = queue := by
    have hleft : c.session.client.queue = [] := rfl
    rw [hleft, List.append_nil] at hqueue
    exact hqueue.symm
  have hturn : ∃ e ∈ c.turns, e.1 = .error (.error .cancelled) := ⟨_, .tail _ (.head _), rfl⟩
  obtain ⟨e, he, hend⟩ := hturn
  refine ⟨hops, ⟨e, he, hend, (hcancelled e he hend).1⟩, ?_, ?_⟩
  · rw [htaken] at hlength
    exact hlength
  · rw [htaken] at hstored
    exact hstored

end Conversation
end ToolAgent
