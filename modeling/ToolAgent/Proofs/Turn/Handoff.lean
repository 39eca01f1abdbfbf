/-
Where control goes when calls name handoffs.

A handoff stands in a registry twice: as a tool, which a batch runs, and under the name of that
tool, where the end of a turn finds it. Names are distinct, so both are one handoff: the tool answers
with the message that the turn ends with. What the end of a turn looks at are the calls alone, never
their results.
-/
import Mathlib.Data.List.Forall2
import ToolAgent.Proofs.Batch.Audited
import ToolAgent.Proofs.Outcome
import ToolAgent.Proofs.Registry
import ToolAgent.Proofs.Turn.Answers

namespace ToolAgent

variable {σ : Type}

/-! ## Calls that name handoffs -/

namespace Registry

variable {r : Registry} {clock : Clock} {calls : List ToolCall} {c : ToolCall} {h : Handoff}

/-- The call names a handoff. -/
def Names (r : Registry) (c : ToolCall) : Prop := c.name ∈ r.handoffs.map (·.name)

instance (r : Registry) (c : ToolCall) : Decidable (r.Names c) := inferInstanceAs (Decidable (_ ∈ _))

theorem handoff?_eq_none_iff : r.handoff? c.name = none ↔ ¬ r.Names c := by
  simp [handoff?, Names]

theorem handoffsIn_eq_nil_iff : r.handoffsIn calls = [] ↔ ∀ c ∈ calls, ¬ r.Names c := by
  simp only [handoffsIn, List.filterMap_eq_nil_iff, handoff?_eq_none_iff]

/-- A call that names a handoff adds that to the others, and no other call adds anything. -/
theorem handoffsIn_cons_of_names (hm : h ∈ r.handoffs) (hn : h.name = c.name) :
    r.handoffsIn (c :: calls) = h :: r.handoffsIn calls :=
  List.filterMap_cons_some (handoff?_eq_some_iff.2 ⟨hm, hn⟩)

theorem handoffsIn_cons_of_not_names (hc : ¬ r.Names c) : r.handoffsIn (c :: calls) = r.handoffsIn calls :=
  List.filterMap_cons_none (handoff?_eq_none_iff.2 hc)

/-- Among calls that name handoffs, one is the first. -/
theorem exists_first : ∀ {calls : List ToolCall}, (∃ c ∈ calls, r.Names c) →
    ∃ (i : Nat) (c : ToolCall), calls[i]? = some c ∧ r.Names c ∧ ∀ c' ∈ calls.take i, ¬ r.Names c'
  | [], ⟨_, hc, _⟩ => nomatch hc
  | c :: calls, h => by
    by_cases hc : r.Names c
    · exact ⟨0, c, rfl, hc, by simp⟩
    · rw [List.exists_mem_cons_iff] at h
      obtain ⟨i, c', hi, hn, hfirst⟩ := exists_first (h.resolve_left hc)
      exact ⟨i + 1, c', by simpa using hi, hn, by simpa [hc] using hfirst⟩

/-- The first call that names a handoff comes first. -/
theorem handoffsIn_head (hm : h ∈ r.handoffs) (hn : h.name = c.name) : ∀ {calls : List ToolCall} {i : Nat},
    calls[i]? = some c → (∀ c' ∈ calls.take i, ¬ r.Names c') → (r.handoffsIn calls).head? = some h
  | c' :: calls, 0, hc, _ => by
    obtain rfl : c' = c := by simpa using hc
    rw [handoffsIn_cons_of_names hm hn]
    rfl
  | c' :: calls, i + 1, hc, hfirst => by
    rw [List.take_succ_cons, List.forall_mem_cons] at hfirst
    rw [handoffsIn_cons_of_not_names hfirst.1]
    exact handoffsIn_head hm hn (by simpa using hc) hfirst.2

/-- There is a handoff for each call that names one. -/
theorem handoffsIn_forall₂ (r : Registry) : ∀ calls : List ToolCall,
    List.Forall₂ (fun c h => h ∈ r.handoffs ∧ h.name = c.name) (calls.filter r.Names) (r.handoffsIn calls)
  | [] => .nil
  | c :: calls => by
    by_cases hc : r.Names c
    · obtain ⟨h, hm, hn⟩ := List.mem_map.1 hc
      rw [List.filter_cons_of_pos (by simpa using hc), handoffsIn_cons_of_names hm hn]
      exact .cons ⟨hm, hn⟩ (r.handoffsIn_forall₂ calls)
    · rw [List.filter_cons_of_neg (by simpa using hc), handoffsIn_cons_of_not_names hc]
      exact r.handoffsIn_forall₂ calls

/-- The tool of a handoff has its message for a value, if it is run at all. -/
theorem execute_handoff {i : Nat} {result : ToolResult} (hc : calls[i]? = some c) (hm : h ∈ r.handoffs)
    (hn : h.name = c.name) (hr : (r.execute clock calls).results[i]? = some result) (hok : result.isError = false) :
    result.content = h.message := by
  have htool : r.get? c.name = some h.tool :=
    get?_eq_some_iff.2 ⟨List.mem_append_right _ (List.mem_map_of_mem hm), hn⟩
  obtain ⟨mark, hends⟩ := execute_ends hc hr hok
  cases hends with
  | returned hname hargs hcut hfinish ho =>
    rw [htool] at hname
    cases hname
    cases ho
    rfl
  | _ => cases hok

end Registry

/-! ## What the observer is told -/

/-- What a turn has told its observer. -/
def Turn.diagnostics (t : Turn σ) : List Diagnostic :=
  t.notices.filterMap fun
    | .audit _ => none
    | .diagnostic d => some d

/-- What there is to tell of calls: which handoffs they name, if these are several. -/
def Registry.ambiguities (r : Registry) (calls : List ToolCall) : List Diagnostic :=
  if (r.handoffsIn calls).tail.isEmpty then [] else [.multipleHandoffs ((r.handoffsIn calls).map (·.target))]

theorem Registry.ambiguities_eq (r : Registry) (calls : List ToolCall) : r.ambiguities calls =
    if 2 ≤ (r.handoffsIn calls).length then [.multipleHandoffs ((r.handoffsIn calls).map (·.target))] else [] := by
  unfold ambiguities
  match r.handoffsIn calls with
  | [] | [_] => rfl
  | _ :: _ :: _ => simp

namespace Agent

variable {a : Agent} {client : Client σ} {tools : List ToolOffer} {t t' : Turn σ} {k : Course} {b : Round}

theorem Asks.diagnostics {r} (h : a.Asks client tools t (r, t')) : t'.diagnostics = t.diagnostics := by
  cases h <;> rfl

theorem Batches.diagnostics (h : a.Batches client t b t') : t'.diagnostics = t.diagnostics := by
  obtain ⟨ha⟩ := h
  rw [← ha.diagnostics]
  simp [callTools, Turn.diagnostics, Turn.emit, Turn.note, Turn.store, List.filterMap_map]

theorem augment_diagnostics (ps : List Provider) (t : Turn σ) : (a.augment ps t).2.diagnostics = t.diagnostics := by
  obtain ⟨_, _, _, h⟩ := a.augment_frame ps t
  rw [h]
  rfl

theorem noteHandoffs_diagnostics (hs : List Handoff) (t : Turn σ) : (noteHandoffs hs t).diagnostics =
    t.diagnostics ++ if hs.tail.isEmpty then [] else [.multipleHandoffs (hs.map (·.target))] := by
  unfold noteHandoffs
  split <;> simp [Turn.diagnostics, Turn.note]

theorem Takes.diagnostics (h : a.Takes client t k t') : t'.diagnostics = t.diagnostics ++
    match k.round? with
    | none => []
    | some b => a.registry.ambiguities b.calls := by
  cases h with
  | unanswered ha | told ha => simpa [Course.round?] using ha.diagnostics
  | handedOver hb hh => rw [noteHandoffs_diagnostics, hb.diagnostics, ← hh]; rfl
  | summarised hb hh _ => simpa [Course.round?, Registry.ambiguities, hh] using hb.diagnostics
  | unreflected hb hh _ ha | reflected hb hh _ ha | overreached hb hh _ ha =>
    simpa [Course.round?, Registry.ambiguities, hh, hb.diagnostics] using ha.diagnostics

/-! ## Where control goes -/

/-- The calls in the first reply make up the batch. -/
theorem Takes.round_of_reply {q : Inquiry} {calls : List ToolCall} {usage : Usage} (h : a.Takes client t k t')
    (ht : t.inquiries = []) (hq : t'.inquiries.head? = some q) (hr : q.reply = .result ⟨.toolCalls calls, usage⟩)
    (hc : calls ≠ []) : ∃ b, k.round? = some b ∧ b.calls = calls := by
  obtain ⟨qs, hqs, hanswers⟩ := h.answers
  rw [hqs, ht, List.nil_append] at hq
  have hfirst : k.answers.head? = some ⟨.toolCalls calls, usage⟩ := by
    obtain ⟨qs', rfl⟩ := List.head?_eq_some_iff.1 hq
    have hanswer : q.reply.answer? = some ⟨.toolCalls calls, usage⟩ := by
      rw [hr, Reply.answer?, Reply.accepted_calls usage hc]
      rfl
    simp [← hanswers, hanswer]
  cases k <;> simp_all [Course.answers, Course.round?]

/-- A turn that has run a batch goes where the first handoff among its calls wants it, and is no
handoff if there is none. -/
theorem Takes.outcome_of_round (h : a.Takes client t k t') (hb : k.round? = some b) :
    match a.registry.handoffsIn b.calls with
    | h :: _ => k.outcome a = .ok (.handoff h.message h.target a.name)
    | [] => ∀ m, k.outcome a = .ok m → m.kind ≠ .handoff := by
  cases h with
  | unanswered | told => cases hb
  | handedOver _ hh =>
    cases hb
    rw [hh]
    rfl
  | summarised _ hh _ | unreflected _ hh _ _ | reflected _ hh _ _ | overreached _ hh _ _ =>
    cases hb
    rw [hh]
    rintro m hm
    cases hm <;> nofun

/-- The first call that names a handoff settles how the turn ends, and its own result, unless it is an
error, has the same message. -/
theorem Takes.handsOff (h : a.Takes client t k t') (hb : k.round? = some b)
    (hsome : ∃ c ∈ b.calls, a.registry.Names c) : ∃ (i : Nat) (c : ToolCall) (h : Handoff), b.calls[i]? = some c ∧
      (∀ c' ∈ b.calls.take i, ¬ a.registry.Names c') ∧ h ∈ a.registry.handoffs ∧ h.name = c.name ∧
      k.outcome a = .ok (.handoff h.message h.target a.name) ∧
      ∀ result, b.results[i]? = some result → result.isError = false → result.content = h.message := by
  obtain ⟨i, c, hi, hname, hfirst⟩ := Registry.exists_first hsome
  obtain ⟨handoff, hm, hn⟩ := List.mem_map.1 hname
  obtain ⟨more, hmore⟩ := List.head?_eq_some_iff.1 (Registry.handoffsIn_head hm hn hi hfirst)
  have houtcome := h.outcome_of_round hb
  rw [hmore] at houtcome
  obtain ⟨t₂, hbatch⟩ := h.batch hb
  obtain ⟨began, hresults⟩ := hbatch.results
  refine ⟨i, c, handoff, hi, hfirst, hm, hn, houtcome, fun result hresult hok => ?_⟩
  exact Registry.execute_handoff hi hm hn (hresults ▸ hresult) hok

theorem Takes.keepsControl {m : ChatMessage} (h : a.Takes client t k t') (hb : k.round? = some b)
    (hnone : ∀ c ∈ b.calls, ¬ a.registry.Names c) (hm : k.outcome a = .ok m) : m.kind ≠ .handoff := by
  have houtcome := h.outcome_of_round hb
  rw [Registry.handoffsIn_eq_nil_iff.2 hnone] at houtcome
  exact houtcome m hm

theorem Takes.batches (h : a.Takes client t k t') (hb : k.round? = some b) :
    t'.batches = t.batches ++ [b.results] := by
  rw [Turn.batches, h.events, Course.events, hb, List.filterMap_append]
  rfl

/-- **A handoff is found by its call.** When the first reply asks for calls, they are run as one
batch. If some name handoffs, the turn ends with the handoff that the first of them names, whatever
the results, and that call's own result, unless it is an error, says what the response says. If
several do, the observer is told the targets of all of them, once. If none does, the turn does not
end with a handoff. -/
theorem turn_handsOff (a : Agent) (client : Client σ) (inputs : List ChatMessage) (context : Context) (state : σ)
    (clock : Clock) {q : Inquiry} {calls : List ToolCall} {usage : Usage}
    (hq : (a.turn client inputs (.start context state clock)).2.inquiries.head? = some q)
    (hr : q.reply = .result ⟨.toolCalls calls, usage⟩) (hc : calls ≠ []) :
    let ended := a.turn client inputs (.start context state clock)
    ∃ results targets, ended.2.batches = [results] ∧ results.length = calls.length ∧
      ((∃ c ∈ calls, a.registry.Names c) → ∃ (i : Nat) (c : ToolCall) (h : Handoff), calls[i]? = some c ∧
        (∀ c' ∈ calls.take i, ¬ a.registry.Names c') ∧ h ∈ a.registry.handoffs ∧ h.name = c.name ∧
        ended.1 = .ok ⟨.handoff h.message h.target a.name, ended.2.events⟩ ∧
        ∀ result, results[i]? = some result → result.isError = false → result.content = h.message) ∧
      List.Forall₂ (fun c target => ∃ h ∈ a.registry.handoffs, h.name = c.name ∧ h.target = target)
        (calls.filter a.registry.Names) targets ∧
      ended.2.diagnostics =
        (if 2 ≤ (calls.filter a.registry.Names).length then [.multipleHandoffs targets] else []) ∧
      ((∀ c ∈ calls, ¬ a.registry.Names c) →
        ∀ response, ended.1 = .ok response → response.chatMessage.kind ≠ .handoff) := by
  intro ended
  have hg : a.Goes client inputs (.start context state clock) ended := a.turn_goes client inputs _
  change ended.2.inquiries.head? = some q at hq
  clear_value ended
  have hi := a.augment_inquiries a.memory (Turn.given (.start context state clock) inputs)
  have hd := a.augment_diagnostics a.memory (Turn.given (.start context state clock) inputs)
  have hb := a.augment_batches a.memory (Turn.given (.start context state clock) inputs)
  cases hg with
  | refused => cases hq
  | forgot _ hm =>
    rw [hm] at hi
    rw [hi] at hq
    cases hq
  | @answered t₁ k t' _ hm hk =>
    rw [hm] at hi hd hb
    obtain ⟨b, hround, rfl⟩ := hk.round_of_reply hi hq hr hc
    obtain ⟨t₂, hbatch⟩ := hk.batch hround
    obtain ⟨began, hresults⟩ := hbatch.results
    have hnamed := a.registry.handoffsIn_forall₂ b.calls
    have htargets : List.Forall₂ (fun c target => ∃ h ∈ a.registry.handoffs, h.name = c.name ∧ h.target = target)
        (b.calls.filter a.registry.Names) ((a.registry.handoffsIn b.calls).map (·.target)) :=
      List.forall₂_map_right_iff.2 (hnamed.imp fun c h ⟨hm, hn⟩ => ⟨h, hm, hn, rfl⟩)
    refine ⟨b.results, _, ?_, ?_, fun hsome => ?_, htargets, ?_, fun hnone response hresponse => ?_⟩
    · rw [hk.batches hround, hb]
      rfl
    · rw [hresults, a.registry.execute_length]
    · obtain ⟨i, c, h, hi, hfirst, hm, hn, houtcome, hown⟩ := hk.handsOff hround hsome
      exact ⟨i, c, h, hi, hfirst, hm, hn, by rw [houtcome]; rfl, hown⟩
    · rw [hk.diagnostics, hd, hround, hnamed.length_eq]
      exact a.registry.ambiguities_eq b.calls
    · cases ho : k.outcome a with
      | error stop => rw [ho] at hresponse; cases hresponse
      | ok m =>
        rw [ho] at hresponse
        cases hresponse
        exact hk.keepsControl hround hnone ho

/-- An agent that can hand over to two others. -/
def dispatcher : Agent :=
  { forecaster with
    name := "dispatcher"
    registry := ⟨[], [.forTarget "ann", .forTarget "bob"], by decide⟩ }

/-- The first handoff is named by a call that fails. -/
theorem dispatcher_handsOff :
    let calls : List ToolCall := [⟨"1", "look", "null"⟩, ⟨"2", "transfer_to_bob", "?"⟩,
      ⟨"3", "transfer_to_ann", "null"⟩, ⟨"4", "transfer_to_bob", "null"⟩]
    let ended := dispatcher.turn (Replay.client .usual) [.text "Help!" "user" none]
      (.start .unbounded (.ofList [⟨.toolCalls calls, .none⟩]) .start)
    ended.1 = .ok ⟨.handoff "Transferred to bob, adopting the role of bob immediately." "bob" "dispatcher",
      ended.2.events⟩ ∧ ∃ targets, targets.length = 3 ∧ ended.2.diagnostics = [.multipleHandoffs targets] := by
  intro calls ended
  have hasked : ended.2.inquiries.head? = some ⟨_, _, _, .result ⟨.toolCalls calls, .none⟩⟩ := rfl
  obtain ⟨results, targets, -, -, hfirst, htargets, htold, -⟩ := turn_handsOff dispatcher (Replay.client .usual)
    [.text "Help!" "user" none] .unbounded (.ofList [⟨.toolCalls calls, .none⟩]) .start hasked rfl (by simp [calls])
  refine ⟨?_, targets, htargets.length_eq.symm, htold⟩
  obtain ⟨i, c, h, hi, hnone, hm, hn, hended, -⟩ := hfirst ⟨_, .tail _ (.head _), by decide⟩
  match i with
  | 0 =>
    cases hi
    have hnamed : dispatcher.registry.Names ⟨"1", "look", "null"⟩ := List.mem_map.2 ⟨h, hm, hn⟩
    exact absurd hnamed (by decide)
  | 1 =>
    cases hi
    obtain rfl | rfl : h = .forTarget "ann" ∨ h = .forTarget "bob" := by simpa [dispatcher] using hm
    · exact absurd hn (by decide)
    · exact hended
  | i + 2 => exact absurd (by decide) (hnone ⟨"2", "transfer_to_bob", "?"⟩ (by simp [calls]))

end Agent
end ToolAgent
