/-
Background turns come to their end, provided that every party of every task gets to act
again and again, and that no turn is ever stuck.

`Desk.left` is what is still to be done. No act adds to it (`Desk.Moves.left`), and as long
as a task has not come to its end, there is an act that takes from it, unless the turn under
way is stuck (`Orderly.progress`).
What the receivers do does not matter for that (`State.run_ofTask`).
-/
import ToolAgent.Proofs.Background.Outbox
import Mathlib.Algebra.BigOperators.Fin
import Mathlib.Algebra.Order.BigOperators.Group.Finset

namespace ToolAgent.Background

variable {σ : Type} {n : Nat} {a : Agent} {client : Client σ} {jobs : Fin n → Job}

/-! ## What is left to do -/

/-- How far a task is from its end. -/
def Phase.left : Phase → Nat
  | .outside => 4
  | .queued => 3
  | .inside => 2
  | .leaving => 1
  | .gone => 0

/-- The steps of the turn that are left, and then the items that are to be handed out. -/
def Work.left (a : Agent) (w : Work σ) : (Nat ×ₗ Nat) ×ₗ Nat :=
  toLex (a.left w.stage, w.pending.length + (if w.told then 0 else 1))

def Hold.left (a : Agent) : Hold σ n → (Nat ×ₗ Nat) ×ₗ Nat
  | .free _ _ => toLex (toLex (0, 0), 0)
  | .taken _ w => w.left a

/-- What is left to do for all tasks, and then for the one that has the agent. -/
def Desk.left (a : Agent) (d : Desk σ n) : Nat ×ₗ ((Nat ×ₗ Nat) ×ₗ Nat) :=
  toLex (∑ i, (d.phase i).left, d.hold.left a)

theorem sum_put_lt {f : Fin n → Phase} {i : Fin n} {p : Phase} (h : p.left < (f i).left) :
    ∑ j, (put f i p j).left < ∑ j, (f j).left := by
  refine Finset.sum_lt_sum (fun j _ => ?_) ⟨i, Finset.mem_univ i, by rwa [put_self]⟩
  by_cases hj : j = i
  · subst hj
    rw [put_self]
    exact h.le
  · rw [put_ne hj]

namespace Desk

variable {d d' : Desk σ n} {i : Fin n} {w w' : Work σ} {s : Session σ} {now : Nat} {signal : Option Signal}

theorem left_of_phase (h : ∑ j, (d'.phase j).left < ∑ j, (d.phase j).left) : d'.left a < d.left a :=
  Prod.Lex.toLex_lt_toLex.2 (.inl h)

theorem left_of_work (hw : d.hold = .taken i w) (h : w'.left a < w.left a) :
    ({ d with hold := .taken i w' } : Desk σ n).left a < d.left a := by
  refine Prod.Lex.toLex_lt_toLex.2 (.inr ⟨rfl, ?_⟩)
  rwa [hw]

theorem step_left (hw : d.hold = .taken i w) (he : ∀ ending, w.stage ≠ .ended ending) (hs : ¬ w.stage.Stuck) :
    ({ d with hold := .taken i (w.step a client) } : Desk σ n).left a < d.left a := by
  have hlt : a.left (w.step a client).stage < a.left w.stage := a.step_left client w.turn he hs
  exact left_of_work hw (Prod.Lex.toLex_lt_toLex.2 (.inl hlt))

theorem step_stuck (hw : d.hold = .taken i w) (hs : w.stage.Stuck) :
    ({ d with hold := .taken i (w.step a client) } : Desk σ n) = d := by
  have hstep : w.step a client = w := by simp [Work.step, a.step_stuck client w.turn hs]
  rw [hstep, ← hw]

theorem forward_left {e : Event} {pending : List Event} (hw : d.hold = .taken i w)
    (hp : w.pending = e :: pending) :
    ({ d with hold := .taken i { w with pending := pending } } : Desk σ n).left a < d.left a := by
  refine left_of_work hw (Prod.Lex.toLex_lt_toLex.2 (.inr ⟨rfl, ?_⟩))
  simp only [hp, List.length_cons]
  omega

theorem tell_left (hw : d.hold = .taken i w) (ht : w.told = false) :
    ({ d with hold := .taken i { w with told := true } } : Desk σ n).left a < d.left a := by
  refine left_of_work hw (Prod.Lex.toLex_lt_toLex.2 (.inr ⟨rfl, ?_⟩))
  simp [ht]

theorem leave_left {ending : Ending} {t : Turn σ} (h : Placed d.served [i] d.queue d.phase) :
    (d.leave jobs i ending t).left a < d.left a := by
  apply left_of_phase
  have hi : ∑ j, (put d.phase i .leaving j).left < ∑ j, (d.phase j).left :=
    sum_put_lt (by simp [h.inside, Phase.left])
  cases hq : d.queue with
  | nil => rwa [leave_free hq]
  | cons k queue =>
    rw [hq] at h
    rw [leave_taken hq]
    refine (sum_put_lt ?_).trans hi
    -- The first in the queue is not the task that leaves.
    have hk : k ≠ i := by
      intro hk
      have ho := h.once
      grind
    simp [put_ne hk, h.queued, Phase.left]

/-- No act of a task adds to what is left to do, and one that does anything takes from it. -/
theorem Moves.left (ho : Orderly a client jobs s now d) (hm : d.Moves a client jobs i (d', signal)) :
    d' = d ∨ d'.left a < d.left a := by
  cases hm with
  | idle => exact .inl rfl
  | enter hi _ => exact .inr (left_of_phase (sum_put_lt (by simp [hi, Phase.left])))
  | queue hi _ => exact .inr (left_of_phase (sum_put_lt (by simp [hi, Phase.left])))
  | @step w hw he =>
    by_cases hs : w.stage.Stuck
    · exact .inl (step_stuck hw hs)
    · exact .inr (step_left hw he hs)
  | forward hw hp => exact .inr (forward_left hw hp)
  | tell hw _ ht _ => exact .inr (tell_left hw ht)
  | leave hw _ _ => exact .inr (leave_left (ho.placed_taken hw))
  | close hi => exact .inr (left_of_phase (sum_put_lt (by simp [hi, Phase.left])))

/-- A task whose turn is stuck keeps the agent, and no other turn comes to its end. -/
theorem Moves.stuck {j : Fin n} (hm : d.Moves a client jobs i (d', signal)) (hw : d.hold = .taken j w)
    (hs : w.stage.Stuck) : d'.log = d.log ∧ ∃ w', d'.hold = .taken j w' ∧ w'.stage.Stuck := by
  cases hm with
  | idle | queue | close => exact ⟨rfl, w, hw, hs⟩
  | enter _ hh => cases hh.symm.trans hw
  | step hw' _ =>
    cases hw'.symm.trans hw
    rw [step_stuck hw hs]
    exact ⟨rfl, w, hw, hs⟩
  | forward hw' _ =>
    cases hw'.symm.trans hw
    exact ⟨rfl, _, rfl, hs⟩
  | tell hw' he _ _ | leave hw' he _ =>
    cases hw'.symm.trans hw
    rw [he] at hs
    exact hs.elim

end Desk

/-! ## There is always someone who can act -/

/-- The desk after the act of a task. -/
def Desk.perform (a : Agent) (client : Client σ) (jobs : Fin n → Job) (d : Desk σ n) : Act n → Desk σ n
  | .advance i => (d.advance a client jobs i).1
  | .forward i => (d.forward i).1
  | .receive _ | .abandon _ => d

theorem State.perform_desk (b : State σ n) (act : Act n) :
    (b.perform a client jobs act).desk = b.desk.perform a client jobs act := by
  have hafter : ∀ i (done : Desk σ n × Option Signal), (b.after i done).desk = done.1 := by
    intro i done
    unfold State.after
    split <;> rfl
  cases act with
  | advance i | forward i => exact hafter i _
  | receive i | abandon i => rfl

theorem State.run_append (b : State σ n) (acts more : List (Act n)) :
    b.run a client jobs (acts ++ more) = (b.run a client jobs acts).run a client jobs more :=
  List.foldl_append

/-- What the receivers do makes no difference to the agent and to the tasks. -/
theorem State.run_ofTask (acts : List (Act n)) (b b' : State σ n) (h : b.desk = b'.desk) :
    (b.run a client jobs acts).desk = (b'.run a client jobs (acts.filter Act.ofTask)).desk := by
  induction acts generalizing b b' with
  | nil => exact h
  | cons act acts ih =>
    have hd : (b.perform a client jobs act).desk = b'.desk.perform a client jobs act := by
      rw [b.perform_desk, h]
    cases act with
    | advance i | forward i => exact ih _ _ (hd.trans (b'.perform_desk _).symm)
    | receive i | abandon i => exact ih _ _ hd

namespace Orderly

variable {s : Session σ} {now : Nat} {d : Desk σ n}

theorem perform_left (h : Orderly a client jobs s now d) (act : Act n) :
    d.perform a client jobs act = d ∨ (d.perform a client jobs act).left a < d.left a := by
  cases act with
  | advance i => exact (d.advance_moves i).left h
  | forward i => exact (d.forward_moves i).left h
  | receive i | abandon i => exact .inl rfl

/-- The task that has the agent can go on, or has an event to pass on, unless its turn is stuck. -/
theorem holder_progress {i : Fin n} {w : Work σ} (h : Orderly a client jobs s now d) (hw : d.hold = .taken i w)
    (hs : ¬ w.stage.Stuck) :
    (d.perform a client jobs (.advance i)).left a < d.left a ∨
      (d.perform a client jobs (.forward i)).left a < d.left a := by
  have hin := (h.placed_taken hw).inside
  have hadvance : d.perform a client jobs (.advance i) = (d.work a client jobs i w).1 := by
    simp [Desk.perform, Desk.advance, hin, hw]
  rw [hadvance]
  unfold Desk.work
  split
  next ending he =>
    split
    next ht => exact .inl (Desk.leave_left (h.placed_taken hw))
    next ht =>
      split
      next => exact .inl (Desk.tell_left hw (by simpa using ht))
      next hp =>
        obtain ⟨e, pending, hp⟩ := List.exists_cons_of_ne_nil fun hn => hp (List.isEmpty_iff.2 hn)
        have hforward : d.perform a client jobs (.forward i) =
            { d with hold := .taken i { w with pending := pending } } := by
          simp [Desk.perform, Desk.forward, hw, hp]
        exact .inr (hforward ▸ Desk.forward_left hw hp)
  next he => exact .inl (Desk.step_left hw he hs)

/-- As long as a task has not come to its end and no turn is stuck, some party has something to do. -/
theorem progress {j : Fin n} (h : Orderly a client jobs s now d) (hj : d.phase j ≠ .gone) (hs : ¬ d.Stuck) :
    ∃ i, (d.perform a client jobs (.advance i)).left a < d.left a ∨
      (d.perform a client jobs (.forward i)).left a < d.left a := by
  cases hh : d.hold with
  | free s' now' =>
    have hp := h.placed_free hh
    -- Nobody has the agent or queues for it, so the task has not asked yet, or has only to close.
    have hmoved : (d.perform a client jobs (.advance j)).phase j ≠ d.phase j := by
      have hpj := hp.phase j
      rw [hp.free rfl] at hpj
      cases hi : d.phase j with
      | outside => simp [Desk.perform, Desk.advance, Desk.ask, Desk.take, Desk.setPhase, hi, hh]
      | queued | inside => simp [hi] at hpj
      | leaving => simp [Desk.perform, Desk.advance, Desk.setPhase, hi]
      | gone => exact absurd hi hj
    refine ⟨j, .inl ((h.perform_left (.advance j)).resolve_left fun he => hmoved ?_)⟩
    rw [he]
  | taken i w => exact ⟨i, h.holder_progress hh fun hw => hs ⟨i, w, hh, hw⟩⟩

end Orderly

/-! ## Endless schedules -/

/-- What the parties of a task do in turn, and then its receiver. -/
def Act.inTurn (i : Fin n) : Nat → Act n
  | 0 => .advance i
  | 1 => .forward i
  | _ => .receive i

/-- The tasks in turn. -/
def roundRobin (n : Nat) [NeZero n] (k : Nat) : Act n :=
  .inTurn ⟨k / 3 % n, Nat.mod_lt _ (Nat.pos_of_neZero n)⟩ (k % 3)

/-- The first so many acts of an endless schedule. -/
def upTo (acts : Nat → Act n) (k : Nat) : List (Act n) := (List.range k).map acts

/-- Both parties of every task get to act again and again. -/
def Fair (acts : Nat → Act n) : Prop :=
  ∀ i k, (∃ l, k ≤ l ∧ acts l = .advance i) ∧ ∃ l, k ≤ l ∧ acts l = .forward i

theorem roundRobin_round [NeZero n] (i : Fin n) (k : Nat) {r : Nat} (hr : r < 3) :
    roundRobin n (3 * (n * k + i) + r) = .inTurn i r := by
  have hround : (3 * (n * k + i) + r) / 3 = n * k + i := by omega
  have hparty : (3 * (n * k + i) + r) % 3 = r := by omega
  have htask : (n * k + i) % n = i := by rw [Nat.mul_add_mod, Nat.mod_eq_of_lt i.isLt]
  simp only [roundRobin, hround, hparty, htask]

theorem le_round [NeZero n] (i : Fin n) (k r : Nat) : k ≤ 3 * (n * k + i) + r := by
  have := Nat.le_mul_of_pos_left k (Nat.pos_of_neZero n)
  omega

theorem roundRobin_fair (n : Nat) [NeZero n] : Fair (roundRobin n) := fun i k =>
  ⟨⟨_, le_round i k 0, roundRobin_round i k (by omega)⟩, ⟨_, le_round i k 1, roundRobin_round i k (by omega)⟩⟩

theorem upTo_succ (acts : Nat → Act n) (k : Nat) : upTo acts (k + 1) = upTo acts k ++ [acts k] := by
  simp [upTo, List.range_succ]

theorem upTo_prefix (acts : Nat → Act n) {k l : Nat} (hl : k ≤ l) : upTo acts k <+: upTo acts l := by
  induction l, hl using Nat.le_induction with
  | base => exact List.prefix_rfl
  | succ l hl ih =>
    rw [upTo_succ]
    exact ih.trans (List.prefix_append _ _)

/-- The state after the first so many acts. -/
def State.play (a : Agent) (client : Client σ) (jobs : Fin n → Job) (acts : Nat → Act n) (b : State σ n)
    (k : Nat) : State σ n :=
  b.run a client jobs (upTo acts k)

namespace State

variable {s : Session σ} {now : Nat} {b : State σ n} {acts : Nat → Act n}

theorem play_succ (b : State σ n) (acts : Nat → Act n) (k : Nat) :
    b.play a client jobs acts (k + 1) = (b.play a client jobs acts k).perform a client jobs (acts k) := by
  rw [play, upTo_succ, run_append]
  rfl

/-- What comes later comes of what is there. -/
theorem play_run (a : Agent) (client : Client σ) (jobs : Fin n → Job) (b : State σ n) (acts : Nat → Act n)
    {k l : Nat} (hl : k ≤ l) :
    ∃ more, b.play a client jobs acts l = (b.play a client jobs acts k).run a client jobs more := by
  obtain ⟨more, hmore⟩ := upTo_prefix acts hl
  refine ⟨more, ?_⟩
  rw [play, ← hmore, run_append]
  rfl

theorem Sound.play (h : b.Sound a client jobs s now) (acts : Nat → Act n) (k : Nat) :
    (b.play a client jobs acts k).Sound a client jobs s now :=
  h.run _

/-- As time goes on, either nothing happens or less is left to do. -/
theorem Sound.play_left (h : b.Sound a client jobs s now) (acts : Nat → Act n) {k l : Nat} (hl : k ≤ l) :
    (b.play a client jobs acts l).desk = (b.play a client jobs acts k).desk ∨
      (b.play a client jobs acts l).desk.left a < (b.play a client jobs acts k).desk.left a := by
  induction l, hl using Nat.le_induction with
  | base => exact .inl rfl
  | succ l hl ih =>
    have hs := (h.play acts l).orderly.perform_left (acts l)
    rw [b.play_succ acts l, perform_desk]
    rcases hs with hs | hs
    · rwa [hs]
    · rcases ih with ih | ih
      · exact .inr (ih ▸ hs)
      · exact .inr (hs.trans ih)

/-- As long as a task has not come to its end and no turn is stuck, less will be left to do. -/
theorem Sound.play_progress (h : b.Sound a client jobs s now) (hf : Fair acts) {k : Nat}
    (hk : ¬ (b.play a client jobs acts k).Finished) (hstuck : ¬ (b.play a client jobs acts k).desk.Stuck) :
    ∃ l, (b.play a client jobs acts l).desk.left a < (b.play a client jobs acts k).desk.left a := by
  obtain ⟨j, hj⟩ := not_forall.1 hk
  obtain ⟨i, hi⟩ := (h.play acts k).orderly.progress hj hstuck
  -- The party that has something to do still has it when its time comes, if nothing has happened by then.
  have hact : ∃ l, k ≤ l ∧ ((b.play a client jobs acts k).desk.perform a client jobs (acts l)).left a <
      (b.play a client jobs acts k).desk.left a := by
    rcases hi with hi | hi
    · obtain ⟨l, hl, he⟩ := (hf i k).1
      exact ⟨l, hl, he ▸ hi⟩
    · obtain ⟨l, hl, he⟩ := (hf i k).2
      exact ⟨l, hl, he ▸ hi⟩
  obtain ⟨l, hl, hlow⟩ := hact
  rcases h.play_left acts hl with hd | hd
  · refine ⟨l + 1, ?_⟩
    rwa [b.play_succ acts l, perform_desk, hd]
  · exact ⟨l, hd⟩

/-- **Every task comes to its end** on a fair schedule, unless a turn is stuck at some time. -/
theorem Sound.finishes (h : b.Sound a client jobs s now) (hf : Fair acts) :
    ∃ k, (b.play a client jobs acts k).Finished ∨ (b.play a client jobs acts k).desk.Stuck := by
  suffices ∀ left k, (b.play a client jobs acts k).desk.left a = left →
      ∃ l, (b.play a client jobs acts l).Finished ∨ (b.play a client jobs acts l).desk.Stuck from this _ 0 rfl
  intro left
  induction left using WellFoundedLT.induction with
  | ind left ih =>
    intro k hk
    by_cases hd : (b.play a client jobs acts k).Finished
    · exact ⟨k, .inl hd⟩
    · by_cases hs : (b.play a client jobs acts k).desk.Stuck
      · exact ⟨k, .inr hs⟩
      · obtain ⟨l, hl⟩ := h.play_progress hf hd hs
        exact ih _ (hk ▸ hl) l rfl

/-- A task whose turn is stuck keeps the agent for ever, and no other turn comes to its end. -/
theorem play_stuck {k l : Nat} {j : Fin n} {w : Work σ} (hl : k ≤ l)
    (hw : (b.play a client jobs acts k).desk.hold = .taken j w) (hs : w.stage.Stuck) :
    (b.play a client jobs acts l).desk.log = (b.play a client jobs acts k).desk.log ∧
      ∃ w', (b.play a client jobs acts l).desk.hold = .taken j w' ∧ w'.stage.Stuck := by
  induction l, hl using Nat.le_induction with
  | base => exact ⟨rfl, w, hw, hs⟩
  | succ l hl ih =>
    obtain ⟨hlog, w', hw', hs'⟩ := ih
    rw [b.play_succ acts l, perform_desk, ← hlog]
    cases acts l with
    | advance i => exact (Desk.advance_moves _ i).stuck hw' hs'
    | forward i => exact Desk.Moves.stuck (Desk.forward_moves _ i : Desk.Moves a client jobs _ i _) hw' hs'
    | receive i | abandon i => exact ⟨rfl, w', hw', hs'⟩

/-- Whoever is gone stays gone. -/
theorem Sound.gone_mono (h : b.Sound a client jobs s now) {i : Fin n} {k l : Nat} (hl : k ≤ l)
    (hi : (b.play a client jobs acts k).desk.phase i = .gone) :
    (b.play a client jobs acts l).desk.phase i = .gone := by
  induction l, hl using Nat.le_induction with
  | base => exact hi
  | succ l hl ih =>
    have ho := (h.play acts l).orderly
    rw [b.play_succ acts l, perform_desk]
    cases acts l with
    | advance j => exact ((Desk.advance_moves _ j).gone ho i).2 (.inl ih)
    | forward j => exact ((Desk.forward_moves _ j).gone ho i).2 (.inl ih)
    | receive j | abandon j => exact ih

end State
end ToolAgent.Background
