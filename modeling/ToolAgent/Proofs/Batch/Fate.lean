/-
What becomes of each call of a batch.

A call that is settled stays so, with its verdict (`Batch.Plays.settled`), and one look has settled
it (`Batch.Plays.settled_by`). A look that lets the last stretch of a body run gives its call the
outcome of the tool; any other one settles only calls that were never admitted, or that it cuts off.
So there are three fates of calls (`Registry.Fate`), and each call that comes to an end has one.
-/
import ToolAgent.Proofs.Batch.Cancelled

namespace ToolAgent

/-- What a tool comes to that is run to its end. -/
def Body.outcome : Body → Outcome
  | .finish o => o
  | .sleep _ rest | .giveWay rest | .awaitCancel rest | .cancel rest => rest.outcome

theorem ToolCall.verdictOf_ne_cutOff (c : ToolCall) (o : Outcome) : c.verdictOf o ≠ .error (.cutOff c.id) := by
  cases o <;> simp [verdictOf]

/-! ## What is left of a call -/

namespace Registry

variable {r : Registry} {c : ToolCall} {clock : Clock} {p : Progress}

/-- A call that is on its way was admitted, and comes to what its tool comes to. -/
def Left (r : Registry) (c : ToolCall) : Progress → Prop
  | .fresh | .settled _ => True
  | .asleep _ rest | .givingWay rest | .awaiting rest => ∃ body, r.admit c = .ok body ∧ body.outcome = rest.outcome

theorem Left.stretch? {b : Body} (h : r.Left c p) (hb : r.stretch? c clock p = some b) :
    ∃ body, r.admit c = .ok body ∧ body.outcome = b.outcome := by
  cases p with
  | fresh =>
    simp only [Registry.stretch?] at hb
    split at hb
    · cases hb
    next body ha =>
      split at hb
      · cases hb
      · cases hb
        exact ⟨_, ha, rfl⟩
  | asleep wake rest | givingWay rest =>
    simp only [Registry.stretch?] at hb
    split at hb <;> cases hb
    exact h
  | awaiting | settled => cases hb

/-- A stretch that settles its call has come to the end of the body. -/
theorem advance_outcome {body b : Body} (ha : r.admit c = .ok body) (hb : body.outcome = b.outcome) :
    r.Left c (c.advance clock b).1 ∧ ∀ v, (c.advance clock b).1 = .settled v → v = c.verdictOf body.outcome := by
  induction b generalizing clock with
  | finish o => exact ⟨trivial, fun v hv => by cases hv; rw [hb]; rfl⟩
  | giveWay rest => exact ⟨⟨body, ha, hb⟩, fun _ => Progress.noConfusion⟩
  | sleep ms rest ih =>
    simp only [ToolCall.advance]
    split
    · exact ih hb
    · exact ⟨⟨body, ha, hb⟩, fun _ => Progress.noConfusion⟩
  | awaitCancel rest ih =>
    simp only [ToolCall.advance]
    split
    · exact ih hb
    · exact ⟨⟨body, ha, hb⟩, fun _ => Progress.noConfusion⟩
  | cancel rest ih => exact ih hb

theorem Left.admitted (h : r.Left c p) (hopen : p.verdict? = none) : p = .fresh ∨ ∃ body, r.admit c = .ok body := by
  cases p with
  | fresh => exact .inl rfl
  | settled v => cases hopen
  | asleep | givingWay | awaiting => exact .inr (h.imp fun _ => And.left)

theorem Left.poll (h : r.Left c p) : r.Left c (r.poll c clock p).1 := by
  cases hs : r.stretch? c clock p with
  | some b =>
    obtain ⟨body, ha, hb⟩ := h.stretch? hs
    rw [poll_stretch hs]
    exact (advance_outcome ha hb).1
  | none =>
    rcases poll_idle hs with hp | ⟨hp, -⟩
    · rw [hp]
      exact h
    · rw [hp]
      trivial

end Registry

/-! ## Settled calls -/

theorem Registry.cutShort_admitted {r : Registry} {c : ToolCall} {p : Progress} {body : Body}
    (ha : r.admit c = .ok body) (hopen : p.verdict? = none) : r.cutShort c p = .error (.cutOff c.id) := by
  cases p with
  | fresh => simp only [cutShort, ha]
  | settled v => cases hopen
  | asleep | givingWay | awaiting => rfl

namespace Batch

variable {r : Registry} {m m' : Moment} {looks : List Look} {i : Nat} {c : ToolCall} {v : Verdict}

theorem Moment.look_self {l : Look} {p : Progress} (h : m.calls[l.place]? = some (c, p)) :
    (m.look r l).calls[l.place]? = some (l.call, l.after r) :=
  List.getElem?_set_self (List.getElem?_eq_some_iff.1 h).1

theorem Moment.look_other {l : Look} (h : l.place ≠ i) : (m.look r l).calls[i]? = m.calls[i]? :=
  List.getElem?_set_ne h

theorem Plays.calls (hp : Plays r m looks m') :
    m'.calls.map (·.1) = m.calls.map (·.1) ∧ ∀ l ∈ looks, (m.calls.map (·.1))[l.place]? = some l.call := by
  induction hp with
  | refl => exact ⟨rfl, by simp⟩
  | @look m i c p looks m' hi _ ih =>
    have hc : (m.calls.map (·.1))[i]? = some c := by simp [hi]
    have hset : (m.look r ⟨i, c, p, m.clock⟩).calls.map (·.1) = m.calls.map (·.1) := by
      obtain ⟨hlt, he⟩ := List.getElem?_eq_some_iff.1 hc
      rw [Moment.look, List.map_set]
      exact he ▸ List.set_getElem_self hlt
    rw [hset] at ih
    exact ⟨ih.1, by simpa using ⟨by simpa using hc, by simpa using ih.2⟩⟩
  | wait _ _ ih => exact ih

theorem Plays.settled (hp : Plays r m looks m') (hi : m.calls[i]? = some (c, .settled v)) :
    m'.calls[i]? = some (c, .settled v) := by
  induction hp with
  | refl => exact hi
  | @look m j c' p looks m' hj _ ih =>
    refine ih ?_
    by_cases hji : j = i
    · subst hji
      rw [hj] at hi
      cases hi
      exact Moment.look_self (l := ⟨j, c, .settled v, m.clock⟩) hj
    · rw [Moment.look_other (l := ⟨j, c', p, m.clock⟩) hji, hi]
  | wait _ _ ih => exact ih hi

/-- What a look settles is settled in the end. -/
theorem Plays.settles (hp : Plays r m looks m') {l : Look} (hl : l ∈ looks) (hv : l.after r = .settled v) :
    m'.calls[l.place]? = some (l.call, .settled v) := by
  induction hp with
  | refl => cases hl
  | @look m i c p looks m' hi hrest ih =>
    obtain rfl | hl := List.mem_cons.1 hl
    · refine hrest.settled ?_
      rw [Moment.look_self (l := ⟨i, c, p, m.clock⟩) hi, hv]
    · exact ih hl
  | wait _ _ ih => exact ih hl

/-- What is settled in the end was so before, or a look has settled it. -/
theorem Plays.settled_by (hp : Plays r m looks m') (hi : m'.calls[i]? = some (c, .settled v)) :
    m.calls[i]? = some (c, .settled v) ∨
      ∃ l ∈ looks, l.place = i ∧ l.call = c ∧ l.progress.verdict? = none ∧ l.after r = .settled v := by
  induction hp with
  | refl => exact .inl hi
  | @look m j c' p looks m' hj _ ih =>
    obtain h | ⟨l, hl, h⟩ := ih hi
    · by_cases hji : j = i
      · subst hji
        rw [Moment.look_self (l := ⟨j, c', p, m.clock⟩) hj] at h
        obtain ⟨hcall, hafter⟩ := Prod.mk.inj (Option.some.inj h)
        cases p with
        | settled w =>
          obtain rfl : c' = c := hcall
          cases hafter
          exact .inl hj
        | _ => exact .inr ⟨_, .head _, rfl, hcall, rfl, hafter⟩
      · rw [Moment.look_other (l := ⟨j, c', p, m.clock⟩) hji] at h
        exact .inl h
    · exact .inr ⟨l, .tail _ hl, h⟩
  | wait _ _ ih => exact ih hi

end Batch

/-! ## Fates -/

namespace Registry

variable {r : Registry} {clock : Clock} {calls : List ToolCall} {i : Nat} {c : ToolCall}

/-- A call is cut off: it was admitted and is not settled, and is looked at under a cancelled token. -/
def CutsOff (r : Registry) (clock : Clock) (calls : List ToolCall) (i : Nat) : Prop :=
  ∃ l ∈ r.looks clock calls, l.place = i ∧ (∃ body, r.admit l.call = .ok body) ∧
    l.progress.verdict? = none ∧ l.clock.isCancelled = true

/-- A look at a call lets its tool run to the end. -/
def Finishes (r : Registry) (clock : Clock) (calls : List ToolCall) (i : Nat) : Prop :=
  ∃ l ∈ r.looks clock calls, l.place = i ∧ (l.stretch? r).isSome = true ∧ (l.after r).verdict?.isSome = true

/-- How the call at a place ends. -/
inductive Fate (r : Registry) (clock : Clock) (calls : List ToolCall) (i : Nat) (c : ToolCall) : Verdict → Prop
  | refused {e : CallError} : r.admit c = .error e → Fate r clock calls i c (.error e)
  | cutOff {body : Body} : r.admit c = .ok body → r.CutsOff clock calls i →
      Fate r clock calls i c (.error (.cutOff c.id))
  | finished {body : Body} : r.admit c = .ok body → ¬ r.CutsOff clock calls i → r.Finishes clock calls i →
      Fate r clock calls i c (c.verdictOf body.outcome)

theorem start_calls (clock : Clock) (calls : List ToolCall) :
    (Batch.Moment.start clock calls).calls.map (·.1) = calls := by
  simp [Batch.Moment.start, Function.comp_def]

theorem looks_call {l : Look} (hl : l ∈ r.looks clock calls) : calls[l.place]? = some l.call := by
  have h := (r.looks_play clock calls).calls.2 l hl
  rwa [start_calls] at h

theorem ended_calls (r : Registry) (clock : Clock) (calls : List ToolCall) :
    (r.ended clock calls).calls.map (·.1) = calls :=
  (r.looks_play clock calls).calls.1.trans (start_calls clock calls)

theorem ended_call {p : Progress} (hi : (r.ended clock calls).calls[i]? = some (c, p)) : calls[i]? = some c := by
  rw [← r.ended_calls clock calls, List.getElem?_map, hi]
  rfl

theorem left (r : Registry) (clock : Clock) (calls : List ToolCall) :
    (∀ l ∈ r.looks clock calls, r.Left l.call l.progress) ∧ ∀ x ∈ (r.ended clock calls).calls, r.Left x.1 x.2 := by
  refine (r.looks_play clock calls).all (P := r.Left) (fun _ _ _ => .poll) fun x hx => ?_
  obtain ⟨c, -, rfl⟩ := List.mem_map.1 hx
  trivial

/-- Only calls that were admitted are cut off. -/
theorem CutsOff.admitted (h : r.CutsOff clock calls i) (hc : calls[i]? = some c) : ∃ body, r.admit c = .ok body := by
  obtain ⟨l, hl, rfl, hadmit, -⟩ := h
  rw [looks_call hl] at hc
  cases hc
  exact hadmit

/-- What is cut off is settled as such. -/
theorem CutsOff.ended (h : r.CutsOff clock calls i) :
    ∃ c, (r.ended clock calls).calls[i]? = some (c, .settled (.error (.cutOff c.id))) := by
  obtain ⟨l, hl, rfl, ⟨body, ha⟩, hopen, hc⟩ := h
  have hafter : l.after r = .settled (.error (.cutOff l.call.id)) := by
    rw [Look.after, poll_cancelled hc, cutShort_admitted ha hopen]
  exact ⟨l.call, (r.looks_play clock calls).settles hl hafter⟩

/-- The look that settles a call settles its fate. -/
theorem settled_fate {l : Look} {v : Verdict} (hl : l ∈ r.looks clock calls) (hopen : l.progress.verdict? = none)
    (hv : l.after r = .settled v) : r.Fate clock calls l.place l.call v := by
  have hended := (r.looks_play clock calls).settles hl hv
  have hleft := (r.left clock calls).1 l hl
  have hcut : r.CutsOff clock calls l.place → v = .error (.cutOff l.call.id) := by
    intro h
    obtain ⟨c, hi⟩ := h.ended
    rw [hended] at hi
    cases hi
    rfl
  cases hs : l.stretch? r with
  | some b =>
    obtain ⟨body, ha, hb⟩ := hleft.stretch? hs
    obtain rfl : v = l.call.verdictOf body.outcome := by
      have hnext : (l.call.advance l.clock b).1 = .settled v := by rw [← hv, Look.after, poll_stretch hs]
      exact (advance_outcome ha hb).2 v hnext
    exact .finished ha (fun h => l.call.verdictOf_ne_cutOff _ (hcut h)) ⟨l, hl, rfl, by rw [hs]; rfl, by rw [hv]; rfl⟩
  | none =>
    rcases poll_idle hs with h | ⟨h, hwhy⟩
    · have hsame : l.after r = l.progress := by rw [Look.after, h]
      rw [← hsame, hv] at hopen
      cases hopen
    · cases ha : r.admit l.call with
      | error e =>
        have hfresh : l.progress = .fresh := by
          refine (hleft.admitted hopen).resolve_right ?_
          rintro ⟨body, hb⟩
          rw [ha] at hb
          cases hb
        have hrefused : l.after r = .settled (.error e) := by
          rw [Look.after, h, hfresh]
          simp only [cutShort, ha]
        rw [hrefused] at hv
        cases hv
        exact .refused ha
      | ok body =>
        have hc : l.clock.isCancelled = true := by
          refine hwhy.resolve_right ?_
          rintro ⟨e, -, he⟩
          rw [ha] at he
          cases he
        have hcuts : r.CutsOff clock calls l.place := ⟨l, hl, rfl, ⟨body, ha⟩, hopen, hc⟩
        rw [hcut hcuts]
        exact .cutOff ha hcuts

/-- Every call that comes to an end has its fate. -/
theorem ended_fate {v : Verdict} (hi : (r.ended clock calls).calls[i]? = some (c, .settled v)) :
    r.Fate clock calls i c v := by
  obtain hstart | ⟨l, hl, rfl, rfl, hopen, hafter⟩ := (r.looks_play clock calls).settled_by hi
  · simp [Batch.Moment.start, List.getElem?_map] at hstart
  · exact settled_fate hl hopen hafter

end Registry
end ToolAgent
