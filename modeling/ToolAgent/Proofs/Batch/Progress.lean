/-
Batches come to an end.

`Batch.load` counts the steps that the calls of a batch have left. A look at a call that is
`ready` takes one of them at least, and no look adds any; between two rounds the clock moves
to an instant at which some call is ready, and the next round looks at one that is. So the
bound on the rounds is never what stops a batch (`rounds_over`): it stops when all calls are
settled, or when those that are not wait for a cancellation and there will be none.
-/
import ToolAgent.Proofs.Batch

namespace ToolAgent

theorem Clock.isCancelled_cancel (c : Clock) : c.cancel.isCancelled = true := by
  simp [isCancelled, cancel]

theorem Body.size_pos (b : Body) : 0 < b.size := by
  cases b <;> simp [size]

/-! ## One call -/

/-- A stretch of a body leaves the clock alone, or cancels the token. -/
theorem ToolCall.advance_clock (c : ToolCall) (b : Body) :
    ∀ clock, (c.advance clock b).2 = clock ∨ (c.advance clock b).2 = clock.cancel := by
  induction b with
  | finish o => exact fun _ => .inl rfl
  | giveWay rest => exact fun _ => .inl rfl
  | sleep ms rest ih =>
    intro clock
    simp only [advance]
    split
    · exact ih clock
    · exact .inl rfl
  | awaitCancel rest ih =>
    intro clock
    simp only [advance]
    split
    · exact ih clock
    · exact .inl rfl
  | cancel rest ih =>
    intro clock
    rcases ih clock.cancel with h | h
    · exact .inr h
    · exact .inr h

theorem ToolCall.resume_clock (c : ToolCall) (clock : Clock) (b : Body) :
    (c.resume clock b).2 = clock ∨ (c.resume clock b).2 = clock.cancel := by
  unfold resume
  split
  · exact .inl rfl
  · exact c.advance_clock b clock

theorem Registry.poll_clock (r : Registry) (c : ToolCall) (clock : Clock) (p : Progress) :
    (r.poll c clock p).2 = clock ∨ (r.poll c clock p).2 = clock.cancel := by
  cases p with
  | fresh =>
    simp only [poll]
    split
    · exact .inl rfl
    · exact c.resume_clock clock _
  | asleep wake rest =>
    simp only [poll]
    split
    · exact c.resume_clock clock rest
    · exact .inl rfl
  | givingWay rest => exact c.resume_clock clock rest
  | awaiting rest =>
    simp only [poll]
    split <;> exact .inl rfl
  | settled v => exact .inl rfl

/-- How many steps of a call are left, counting its start. -/
def Registry.stepsLeft (r : Registry) (c : ToolCall) : Progress → Nat
  | .fresh => match r.admit c with
    | .ok body => body.size + 1
    | .error _ => 1
  | .asleep _ rest | .givingWay rest | .awaiting rest => rest.size
  | .settled _ => 0

/-- The call is not settled, and goes on or is cut off when it is looked at. -/
def Progress.Ready (clock : Clock) (p : Progress) : Prop :=
  p.verdict? = none ∧ (clock.isCancelled = true ∨ Batch.isDue clock.now p = true)

theorem ToolCall.advance_stepsLeft (r : Registry) (c : ToolCall) (b : Body) :
    ∀ clock, r.stepsLeft c (c.advance clock b).1 < b.size := by
  induction b with
  | finish o => exact fun _ => Nat.zero_lt_one
  | giveWay rest => exact fun _ => Nat.lt_succ_self _
  | sleep ms rest ih =>
    intro clock
    simp only [advance]
    split
    · exact Nat.lt_succ_of_lt (ih clock)
    · exact Nat.lt_succ_self _
  | awaitCancel rest ih =>
    intro clock
    simp only [advance]
    split
    · exact Nat.lt_succ_of_lt (ih clock)
    · exact Nat.lt_succ_self _
  | cancel rest ih => exact fun clock => Nat.lt_succ_of_lt (ih clock.cancel)

theorem ToolCall.resume_stepsLeft (r : Registry) (c : ToolCall) (clock : Clock) (b : Body) :
    r.stepsLeft c (c.resume clock b).1 < b.size := by
  unfold resume
  split
  · exact b.size_pos
  · exact c.advance_stepsLeft r b clock

namespace Registry

variable {r : Registry} {c : ToolCall} {clock : Clock} {p : Progress}

/-- A look at a call that is ready takes a step of it. -/
theorem poll_ready (h : p.Ready clock) : r.stepsLeft c (r.poll c clock p).1 < r.stepsLeft c p := by
  obtain ⟨hv, hd⟩ := h
  cases p with
  | fresh =>
    cases ha : r.admit c with
    | error e =>
      simp only [poll, stepsLeft, ha]
      exact Nat.zero_lt_one
    | ok body =>
      simp only [poll, ha]
      rw [stepsLeft.eq_def r c .fresh]
      simp only [ha]
      exact Nat.lt_succ_of_lt (c.resume_stepsLeft r clock body)
  | asleep wake rest =>
    have hw : wake ≤ clock.now ∨ clock.isCancelled = true := by
      rcases hd with hd | hd
      · exact .inr hd
      · simp only [Batch.isDue, Batch.dueAt, decide_eq_true_eq, Option.some.injEq] at hd
        exact .inl (by omega)
    simp only [poll, if_pos hw]
    exact c.resume_stepsLeft r clock rest
  | givingWay rest => exact c.resume_stepsLeft r clock rest
  | awaiting rest =>
    have hc : clock.isCancelled = true := by simpa [Batch.isDue, Batch.dueAt] using hd
    simp only [poll, if_pos hc]
    exact rest.size_pos
  | settled v => cases hv

theorem poll_unready (h : ¬ p.Ready clock) : r.poll c clock p = (p, clock) := by
  cases p with
  | fresh => exact absurd ⟨rfl, .inr (by simp [Batch.isDue, Batch.dueAt])⟩ h
  | asleep wake rest =>
    have hw : ¬ (wake ≤ clock.now ∨ clock.isCancelled = true) := by
      rintro (hw | hc)
      · exact h ⟨rfl, .inr (by simp only [Batch.isDue, Batch.dueAt, Nat.max_eq_left hw, decide_true])⟩
      · exact h ⟨rfl, .inl hc⟩
    simp only [poll, if_neg hw]
  | givingWay rest => exact absurd ⟨rfl, .inr (by simp [Batch.isDue, Batch.dueAt])⟩ h
  | awaiting rest =>
    have hc : ¬ clock.isCancelled = true := fun hc => h ⟨rfl, .inl hc⟩
    simp only [poll, if_neg hc]
  | settled v => rfl

theorem poll_stepsLeft (r : Registry) (c : ToolCall) (clock : Clock) (p : Progress) :
    r.stepsLeft c (r.poll c clock p).1 ≤ r.stepsLeft c p := by
  by_cases h : p.Ready clock
  · exact Nat.le_of_lt (poll_ready h)
  · exact Nat.le_of_eq (by rw [poll_unready h])

end Registry

/-- What is ready stays so, however a round goes on. -/
theorem Progress.Ready.later {clock clock' : Clock} {p : Progress} (h : p.Ready clock)
    (hc : clock' = clock ∨ clock' = clock.cancel) : p.Ready clock' := by
  rcases hc with rfl | rfl
  · exact h
  · exact ⟨h.1, .inl clock.isCancelled_cancel⟩

namespace Batch

variable {r : Registry}

/-! ## Rounds -/

/-- At this place stands a call that is ready. -/
def ReadyAt (clock : Clock) (calls : Calls) (i : Nat) : Prop :=
  ∃ c p, calls[i]? = some (c, p) ∧ Progress.Ready clock p

/-- The steps that all calls together have left. -/
def load (r : Registry) : Calls → Nat
  | [] => 0
  | (c, p) :: calls => r.stepsLeft c p + load r calls

theorem load_set {c : ToolCall} {p : Progress} (q : Progress) : ∀ {calls : Calls} {i : Nat},
    calls[i]? = some (c, p) →
      load r (calls.set i (c, q)) + r.stepsLeft c p = load r calls + r.stepsLeft c q
  | [], _, h => by simp at h
  | x :: calls, 0, h => by
    obtain rfl : x = (c, p) := by simpa using h
    simp only [List.set_cons_zero, load]
    omega
  | x :: calls, i + 1, h => by
    have h : calls[i]? = some (c, p) := by simpa using h
    have ih := load_set q h
    simp only [List.set_cons_succ, load]
    omega

theorem load_poll {clock : Clock} {calls : Calls} {i : Nat} {c : ToolCall} {p : Progress}
    (h : calls[i]? = some (c, p)) : load r (calls.set i (c, (r.poll c clock p).1)) ≤ load r calls := by
  have hs := load_set (r := r) (r.poll c clock p).1 h
  have hp := r.poll_stepsLeft c clock p
  omega

theorem round_clock (r : Registry) : ∀ (line : Line) (clock : Clock) (calls : Calls),
    (round r clock calls line).2.1 = clock ∨ (round r clock calls line).2.1 = clock.cancel
  | [], _, _ => .inl rfl
  | i :: line, clock, calls => by
    rw [round]
    split
    · exact round_clock r line clock calls
    next c p _ =>
      simp only
      have ih := round_clock r line (r.poll c clock p).2 (calls.set i (c, (r.poll c clock p).1))
      rcases r.poll_clock c clock p with h | h
      · rw [h] at ih ⊢
        exact ih
      · rw [h] at ih ⊢
        exact .inr (ih.elim id id)

theorem round_load (r : Registry) : ∀ (line : Line) (clock : Clock) (calls : Calls),
    load r (round r clock calls line).1 ≤ load r calls
  | [], _, _ => Nat.le_refl _
  | i :: line, clock, calls => by
    rw [round]
    split
    · exact round_load r line clock calls
    next c p hi => exact Nat.le_trans (round_load r line _ _) (load_poll hi)

/-- A round gets on if it looks at a call that is ready. -/
theorem round_load_lt : ∀ {line : Line} {clock : Clock} {calls : Calls} {i : Nat},
    i ∈ line → ReadyAt clock calls i → load r (round r clock calls line).1 < load r calls
  | j :: line, clock, calls, i, hm, h => by
    obtain ⟨c, p, hi, hp⟩ := h
    rw [round]
    by_cases hj : j = i
    · subst hj
      simp only [hi]
      have hs := load_set (r := r) (r.poll c clock p).1 hi
      have hlt := Registry.poll_ready (r := r) (c := c) hp
      have hrest := round_load r line (r.poll c clock p).2 (calls.set j (c, (r.poll c clock p).1))
      omega
    · -- The call is still ready when its turn comes.
      have hm : i ∈ line := by
        rcases List.mem_cons.1 hm with rfl | hm
        · exact absurd rfl hj
        · exact hm
      split
      · exact round_load_lt hm ⟨c, p, hi, hp⟩
      next c' p' hj' =>
        have hi' : (calls.set j (c', (r.poll c' clock p').1))[i]? = some (c, p) := by
          rw [List.getElem?_set_ne hj]
          exact hi
        have hp' : p.Ready (r.poll c' clock p').2 := hp.later (r.poll_clock c' clock p')
        exact Nat.lt_of_lt_of_le (round_load_lt hm ⟨c, p, hi', hp'⟩) (load_poll hj')

/-- Settled calls stay settled. -/
theorem round_settled : ∀ {line : Line} {clock : Clock} {calls : Calls}, isSettled calls = true →
    round r clock calls line = (calls, clock, [])
  | [], _, _, _ => rfl
  | i :: line, clock, calls, h => by
    rw [round]
    split
    · exact round_settled h
    next c p hi =>
      have hp : p.verdict?.isSome = true := List.all_eq_true.1 h _ (List.mem_of_getElem? hi)
      cases p with
      | settled v =>
        have hset : calls.set i (c, .settled v) = calls := by
          obtain ⟨hlt, he⟩ := List.getElem?_eq_some_iff.1 hi
          rw [← he, List.set_getElem_self hlt]
        simp only [Registry.poll, hset, round_settled h]
        rfl
      | _ => cases hp

/-! ## Between rounds -/

theorem earlier_none {a b : Option Nat} (h : earlier a b = none) : a = none ∧ b = none := by
  cases a <;> cases b <;> simp_all [earlier]

theorem earlier_eq_some {a b : Option Nat} {d : Nat} (h : earlier a b = some d) :
    (a = some d ∨ b = some d) ∧ (∀ x, a = some x → d ≤ x) ∧ ∀ x, b = some x → d ≤ x := by
  cases a <;> cases b <;> simp_all [earlier]
  omega

/-- The first instant at which one of the calls is due. -/
def firstDue (now : Nat) (calls : Calls) : Option Nat :=
  calls.foldl (fun e (_, p) => earlier e (dueAt now p)) none

section FirstDue

variable {now : Nat} {calls : Calls}

theorem foldl_due : ∀ (calls : Calls) (e : Option Nat),
    (calls.foldl (fun e (_, p) => earlier e (dueAt now p)) e = none →
      e = none ∧ ∀ x ∈ calls, dueAt now x.2 = none) ∧
    ∀ d, calls.foldl (fun e (_, p) => earlier e (dueAt now p)) e = some d →
      (e = some d ∨ ∃ x ∈ calls, dueAt now x.2 = some d) ∧ (∀ y, e = some y → d ≤ y) ∧
        ∀ x ∈ calls, ∀ y, dueAt now x.2 = some y → d ≤ y
  | [], e => ⟨fun h => ⟨h, by simp⟩, fun d h => ⟨.inl h, fun y hy => by simp_all, by simp⟩⟩
  | (c, p) :: calls, e => by
    obtain ⟨hnone, hsome⟩ := foldl_due calls (earlier e (dueAt now p))
    simp only [List.foldl_cons, List.mem_cons, forall_eq_or_imp, exists_eq_or_imp]
    refine ⟨fun h => ?_, fun d h => ?_⟩
    · obtain ⟨he, hall⟩ := hnone h
      obtain ⟨he, hp⟩ := earlier_none he
      exact ⟨he, hp, hall⟩
    · obtain ⟨hd, hle, hall⟩ := hsome d h
      -- What is found stands before the others: the earlier of the first two, or one of the rest.
      cases hf : earlier e (dueAt now p) with
      | none =>
        obtain ⟨he, hp⟩ := earlier_none hf
        rw [hf] at hd
        rcases hd with hd | hd
        · cases hd
        · exact ⟨.inr (.inr hd), by simp [he], by simp [hp], hall⟩
      | some m =>
        obtain ⟨hm, hme, hmp⟩ := earlier_eq_some hf
        have hdm : d ≤ m := hle m hf
        refine ⟨?_, fun y hy => Nat.le_trans hdm (hme y hy),
          fun y hy => Nat.le_trans hdm (hmp y hy), hall⟩
        rcases hd with hd | hd
        · obtain rfl : m = d := by rw [hf] at hd; exact Option.some.inj hd
          exact hm.elim .inl fun h => .inr (.inl h)
        · exact .inr (.inr hd)

theorem firstDue_eq_none (h : firstDue now calls = none) : ∀ x ∈ calls, dueAt now x.2 = none :=
  ((foldl_due calls none).1 h).2

theorem firstDue_eq_some {d : Nat} (h : firstDue now calls = some d) :
    (∃ x ∈ calls, dueAt now x.2 = some d) ∧ ∀ x ∈ calls, ∀ y, dueAt now x.2 = some y → d ≤ y := by
  obtain ⟨hd, -, hall⟩ := (foldl_due calls none).2 d h
  exact ⟨hd.resolve_left (by simp), hall⟩

end FirstDue

theorem le_of_dueAt {now d : Nat} {p : Progress} (h : dueAt now p = some d) : now ≤ d := by
  cases p with
  | fresh | givingWay => exact Nat.le_of_eq (Option.some.inj h)
  | asleep wake rest =>
    obtain rfl : max now wake = d := Option.some.inj h
    exact Nat.le_max_left now wake
  | awaiting | settled => cases h

/-- What is due at an instant to come is due then. -/
theorem isDue_of_dueAt {now d : Nat} {p : Progress} (h : dueAt now p = some d) : isDue d p = true := by
  cases p with
  | fresh | givingWay => simp [isDue, dueAt]
  | asleep wake rest =>
    obtain rfl : max now wake = d := Option.some.inj h
    simp [isDue, dueAt]
  | awaiting | settled => cases h

/-- The clock goes on to an instant that is passed by nothing that is due and not by the
alarm, and at which the token is cancelled or some call is due. -/
structure Waits (clock : Clock) (calls : Calls) (now : Nat) : Prop where
  running : clock.isCancelled = false
  le : clock.now ≤ now
  due : ∀ x ∈ calls, ∀ d, dueAt clock.now x.2 = some d → now ≤ d
  alarm : ∀ d, clock.alarm = some d → now ≤ d
  awakes : clock.alarm = some now ∨ ∃ x ∈ calls, dueAt clock.now x.2 = some now

theorem nextClock?_eq_some {clock clock' : Clock} {calls : Calls}
    (h : nextClock? clock calls = some clock') :
    (clock.isCancelled = true ∧ clock' = clock) ∨
      ∃ now, Waits clock calls now ∧ clock' = { clock with now := now } := by
  unfold nextClock? at h
  split at h
  next hc => exact .inl ⟨hc, (Option.some.inj h).symm⟩
  next hc =>
    obtain ⟨now, he, rfl⟩ := Option.map_eq_some_iff.1 h
    replace he : earlier (firstDue clock.now calls) clock.alarm = some now := he
    obtain ⟨hd, hdue, halarm⟩ := earlier_eq_some he
    have hall : ∀ x ∈ calls, ∀ d, dueAt clock.now x.2 = some d → now ≤ d := by
      intro x hx d hd
      cases hf : firstDue clock.now calls with
      | none => rw [firstDue_eq_none hf x hx] at hd; cases hd
      | some m => exact Nat.le_trans (hdue m hf) ((firstDue_eq_some hf).2 x hx d hd)
    refine .inr ⟨now, ⟨by simpa using hc, ?_, hall, halarm, ?_⟩, rfl⟩
    · rcases hd with hd | hd
      · obtain ⟨x, -, hx⟩ := (firstDue_eq_some hd).1
        exact le_of_dueAt hx
      · have : ¬ now ≤ clock.now := by
          simp only [Clock.isCancelled, hd, Option.any_some, Bool.or_eq_true, decide_eq_true_eq] at hc
          exact fun hle => hc (.inr hle)
        omega
    · exact hd.elim (fun hd => .inr (firstDue_eq_some hd).1) .inl

theorem nextClock?_eq_none {clock : Clock} {calls : Calls} (h : nextClock? clock calls = none) :
    clock.isCancelled = false ∧ clock.alarm = none ∧ ∀ x ∈ calls, dueAt clock.now x.2 = none := by
  unfold nextClock? at h
  split at h
  · cases h
  next hc =>
    have he : earlier (firstDue clock.now calls) clock.alarm = none := Option.map_eq_none_iff.1 h
    obtain ⟨hd, ha⟩ := earlier_none he
    exact ⟨by simpa using hc, ha, firstDue_eq_none hd⟩

/-- After waiting, some call is ready, unless all are settled. -/
theorem exists_ready {clock clock' : Clock} {calls : Calls} (h : nextClock? clock calls = some clock')
    (hs : isSettled calls = false) : ∃ i, ReadyAt clock' calls i := by
  have hopen : ∃ x ∈ calls, x.2.verdict? = none := by simpa [isSettled] using hs
  obtain ⟨⟨c, p⟩, hx, hv⟩ := hopen
  obtain ⟨i, hi⟩ := List.mem_iff_getElem?.1 hx
  rcases nextClock?_eq_some h with ⟨hc, rfl⟩ | ⟨now, hw, rfl⟩
  · exact ⟨i, c, p, hi, hv, .inl hc⟩
  · rcases hw.awakes with ha | ⟨⟨c', p'⟩, hx', hd⟩
    · exact ⟨i, c, p, hi, hv, .inl (by simp [Clock.isCancelled, ha])⟩
    · obtain ⟨j, hj⟩ := List.mem_iff_getElem?.1 hx'
      have hv' : p'.verdict? = none := by
        cases p' with
        | settled v => cases hd
        | _ => rfl
      exact ⟨j, c', p', hj, hv', .inr (isDue_of_dueAt hd)⟩

theorem mem_among {line : Line} {test : Progress → Bool} {calls : Calls} {i : Nat} :
    i ∈ among line test calls ↔ i ∈ line ∧ ∃ c p, calls[i]? = some (c, p) ∧ test p = true := by
  simp [among, Option.any_eq_true]

/-- The next round looks at a call that is ready, if there is one. -/
theorem nextLine_ready {clock : Clock} {rested : Line} {calls : Calls}
    (hr : ∀ i < calls.length, i ∈ rested) (h : ∃ i, ReadyAt clock calls i) :
    ∃ i ∈ nextLine clock rested calls, ReadyAt clock calls i := by
  obtain ⟨i, c, p, hi, hp⟩ := h
  have hlt : i < calls.length := (List.getElem?_eq_some_iff.1 hi).1
  unfold nextLine
  split
  · exact ⟨i, mem_among.2 ⟨by simpa using hlt, c, p, hi, by simp [hp.1]⟩, c, p, hi, hp⟩
  next hcrowd =>
    have hd : isDue clock.now p = true := hp.2.resolve_left fun hc => hcrowd (.inr hc)
    split
    · exact ⟨i, mem_among.2 ⟨hr i hlt, c, p, hi, hd⟩, c, p, hi, hp⟩
    next hne =>
      -- Some calls gave way; any of them is ready.
      obtain ⟨j, hj⟩ := List.exists_mem_of_ne_nil _ hne
      obtain ⟨-, c', p', hj', hg⟩ := mem_among.1 hj
      refine ⟨j, hj, c', p', hj', ?_⟩
      cases p' with
      | givingWay rest => exact ⟨rfl, .inr (by simp [isDue, dueAt])⟩
      | _ => cases hg

/-! ## Whole batches -/

/-- Nothing is left to do: all calls are settled, or there is nothing to wait for. -/
def Over (clock : Clock) (calls : Calls) : Prop := isSettled calls = true ∨ nextClock? clock calls = none

/-- A batch that is over has settled its calls, but for those that wait for a cancellation
when there will be none. -/
theorem Over.settled_or_awaiting {clock : Clock} {calls : Calls} (h : Over clock calls)
    {c : ToolCall} {p : Progress} (hx : (c, p) ∈ calls) :
    (∃ v, p = .settled v) ∨
      ((∃ rest, p = .awaiting rest) ∧ clock.isCancelled = false ∧ clock.alarm = none) := by
  rcases h with h | h
  · have hv : p.verdict?.isSome = true := List.all_eq_true.1 h _ hx
    cases p with
    | settled v => exact .inl ⟨v, rfl⟩
    | _ => cases hv
  · obtain ⟨hc, ha, hd⟩ := nextClock?_eq_none h
    have hd : dueAt clock.now p = none := hd _ hx
    cases p with
    | settled v => exact .inl ⟨v, rfl⟩
    | awaiting rest => exact .inr ⟨⟨rest, rfl⟩, hc, ha⟩
    | _ => cases hd

/-- The line holds a call that is ready, unless all calls are settled. -/
def Lined (clock : Clock) (calls : Calls) (line : Line) : Prop :=
  isSettled calls = true ∨ ∃ i ∈ line, ReadyAt clock calls i

theorem rounds_over (r : Registry) : ∀ {bound : Nat} {clock : Clock} {calls : Calls} {rested line : Line},
    load r calls < bound → (∀ i < calls.length, i ∈ rested) → Lined clock calls line →
      Over (rounds r bound clock calls rested line).2.1 (rounds r bound clock calls rested line).1
  | bound + 1, clock, calls, rested, line, hb, hr, hl => by
    simp only [rounds]
    split
    next hs => exact .inl hs
    next hs =>
      split
      next hn => exact .inr hn
      next clock' hn =>
        have hs : isSettled (round r clock calls line).1 = false := by simpa using hs
        have hlen : (round r clock calls line).1.length = calls.length := by
          simpa using congrArg List.length (round_calls r line clock calls)
        have hlt : load r (round r clock calls line).1 < load r calls := by
          rcases hl with hset | ⟨i, hm, hi⟩
          · rw [round_settled hset] at hs
            rw [hset] at hs
            cases hs
          · exact round_load_lt hm hi
        have hrested : ∀ i < (round r clock calls line).1.length,
            i ∈ rested.filter (!line.contains ·) ++ line := by
          intro i hi
          rw [hlen] at hi
          by_cases hm : i ∈ line
          · simp [hm]
          · simp [hm, hr i hi]
        exact rounds_over r (by omega) hrested (.inr (nextLine_ready hrested (exists_ready hn hs)))

theorem foldl_stepsLeft : ∀ (calls : List ToolCall) (n : Nat),
    calls.foldl (fun n c => n + r.stepsLeft c .fresh) n = n + load r (calls.map (·, .fresh))
  | [], _ => rfl
  | c :: calls, n => by
    rw [List.foldl_cons, foldl_stepsLeft calls, List.map_cons, load, Nat.add_assoc]

theorem bound_eq (r : Registry) (calls : List ToolCall) :
    bound r calls = load r (calls.map (·, .fresh)) + 1 :=
  (foldl_stepsLeft calls 1).trans (Nat.add_comm _ _)

/-- Calls before the first round are ready. -/
theorem lined_fresh (clock : Clock) (calls : List ToolCall) :
    Lined clock (calls.map (·, .fresh)) (List.range calls.length) := by
  cases calls with
  | nil => exact .inl rfl
  | cons c calls => exact .inr ⟨0, by simp, c, .fresh, rfl, rfl, .inr (by simp [isDue, dueAt])⟩

/-- A batch in between: its calls, each with its progress, and the clock. -/
structure Moment where
  calls : Calls
  clock : Clock

/-- Before anything has been looked at. -/
def Moment.start (clock : Clock) (calls : List ToolCall) : Moment := ⟨calls.map (·, .fresh), clock⟩

end Batch

namespace Registry

/-- The moment at which there is nothing left to do in a batch. -/
def ended (r : Registry) (clock : Clock) (calls : List ToolCall) : Batch.Moment :=
  let (ended, clock, _) := r.allRounds clock calls
  ⟨ended, clock⟩

variable {r : Registry} {clock : Clock} {calls : List ToolCall}

theorem execute_results (r : Registry) (clock : Clock) (calls : List ToolCall) :
    (r.execute clock calls).results =
      (r.ended clock calls).calls.map fun x => x.1.resultOf (Batch.verdict x.1 x.2) := rfl

/-- The bound on its rounds is never what ends a batch. -/
theorem ended_over (r : Registry) (clock : Clock) (calls : List ToolCall) :
    Batch.Over (r.ended clock calls).clock (r.ended clock calls).calls := by
  refine Batch.rounds_over r ?_ ?_ (Batch.lined_fresh clock calls)
  · rw [Batch.bound_eq]
    exact Nat.lt_succ_self _
  · simp

/-- A batch has a report if all its calls are settled in the end. -/
theorem execute?_eq_some {b : BatchReport} : r.execute? clock calls = some b ↔
    Batch.isSettled (r.ended clock calls).calls = true ∧ r.execute clock calls = b :=
  Batch.report?_eq_some

/-- A batch never ends if one of its calls waits for a cancellation, and there will be none. -/
theorem execute?_eq_none : r.execute? clock calls = none ↔
    (r.ended clock calls).clock.isCancelled = false ∧ (r.ended clock calls).clock.alarm = none ∧
      ∃ c rest, (c, .awaiting rest) ∈ (r.ended clock calls).calls := by
  have hnone : r.execute? clock calls = none ↔ Batch.isSettled (r.ended clock calls).calls = false :=
    Batch.report?_eq_none
  rw [hnone]
  constructor
  · intro hs
    have hopen : ∃ x ∈ (r.ended clock calls).calls, x.2.verdict? = none := by simpa [Batch.isSettled] using hs
    obtain ⟨⟨c, p⟩, hx, hv⟩ := hopen
    rcases (r.ended_over clock calls).settled_or_awaiting hx with ⟨v, rfl⟩ | ⟨⟨rest, rfl⟩, hc, ha⟩
    · cases hv
    · exact ⟨hc, ha, c, rest, hx⟩
  · rintro ⟨-, -, c, rest, hx⟩
    exact List.all_eq_false.2 ⟨_, hx, by simp [Progress.verdict?]⟩

end Registry
end ToolAgent
