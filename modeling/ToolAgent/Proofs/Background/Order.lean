/-
Background turns run one after the other, whoever acts when.

`Desk.Moves` says all that an act of a task can do. `Orderly` is what every act keeps:
each task is where its phase says; the turns that are over are those that `Session.turns`
gives for the tasks in the order in which they asked for the agent; and the turn under way
is what it would be, had it started right after them and nobody interfered.
-/
import ToolAgent.Background
import ToolAgent.Proofs.Session
import ToolAgent.Proofs.Turn.Hanging

namespace ToolAgent

variable {σ : Type}

namespace Background

variable {n : Nat} {a : Agent} {client : Client σ} {jobs : Fin n → Job}

/-! ## What an act can do -/

/-- What an act of a task makes of the desk, and what the task sends. -/
inductive Desk.Moves (a : Agent) (client : Client σ) (jobs : Fin n → Job) (d : Desk σ n) (i : Fin n) :
    Desk σ n × Option Signal → Prop
  | idle : Moves a client jobs d i (d, none)
  | enter {s now} : d.phase i = .outside → d.hold = .free s now →
      Moves a client jobs d i (d.take jobs s now i, none)
  | queue {j w} : d.phase i = .outside → d.hold = .taken j w →
      Moves a client jobs d i ({ d.setPhase i .queued with queue := d.queue ++ [i] }, none)
  | step {w} : d.hold = .taken i w → (∀ ending, w.stage ≠ .ended ending) →
      Moves a client jobs d i ({ d with hold := .taken i (w.step a client) }, none)
  | forward {w e pending} : d.hold = .taken i w → w.pending = e :: pending →
      Moves a client jobs d i
        ({ d with hold := .taken i { w with pending := pending } }, some (.send (.event e)))
  | tell {w ending} : d.hold = .taken i w → w.stage = .ended ending → w.told = false → w.pending = [] →
      Moves a client jobs d i
        ({ d with hold := .taken i { w with told := true } }, some (.send ending.output))
  | leave {w ending} : d.hold = .taken i w → w.stage = .ended ending → w.told = true →
      Moves a client jobs d i (d.leave jobs i ending w.turn, none)
  | close : d.phase i = .leaving → Moves a client jobs d i (d.setPhase i .gone, some .close)

theorem Desk.work_moves {d : Desk σ n} {i : Fin n} {w : Work σ} (hw : d.hold = .taken i w) :
    d.Moves a client jobs i (d.work a client jobs i w) := by
  unfold work
  split
  next ending he =>
    split
    next ht => exact .leave hw he ht
    next ht =>
      split
      next hp => exact .tell hw he (by simpa using ht) (by simpa using hp)
      next => exact .idle
  next hne => exact .step hw hne

theorem Desk.advance_moves (d : Desk σ n) (i : Fin n) :
    d.Moves a client jobs i (d.advance a client jobs i) := by
  unfold advance
  split
  next hp =>
    unfold ask
    split
    next hh => exact .enter hp hh
    next hh => exact .queue hp hh
  next j w _ hh =>
    split
    next h => exact work_moves (h ▸ hh)
    next => exact .idle
  next hp => exact .close hp
  next => exact .idle

theorem Desk.forward_moves (d : Desk σ n) (i : Fin n) : d.Moves a client jobs i (d.forward i) := by
  unfold forward
  split
  next j w hh =>
    split
    next e pending hp =>
      split
      next h => subst h; exact .forward hh hp
      next => exact .idle
    next => exact .idle
  next => exact .idle

/-! ## Places -/

/-- The tasks that have given the agent back, the one that has it, if any, and those in the queue:
each is there once, and where its phase says. Nobody queues for an agent that is free. -/
structure Placed (served holder queue : List (Fin n)) (phase : Fin n → Phase) : Prop where
  once : (served ++ holder ++ queue).Nodup
  free : holder = [] → queue = []
  phase : ∀ i, match phase i with
    | .outside => i ∉ served ++ holder ++ queue
    | .queued => i ∈ queue
    | .inside => i ∈ holder
    | .leaving | .gone => i ∈ served

namespace Placed

variable {served queue : List (Fin n)} {phase : Fin n → Phase} {i j : Fin n}

theorem start : Placed [] [] [] fun _ : Fin n => .outside := ⟨.nil, fun _ => rfl, by simp⟩

theorem inside (h : Placed served [i] queue phase) : phase i = .inside := by
  have hp := h.phase i
  have ho := h.once
  cases hi : phase i <;> grind

theorem queued (h : Placed served [i] (j :: queue) phase) : phase j = .queued := by
  have hp := h.phase j
  have ho := h.once
  cases hj : phase j <;> grind

theorem of_served {holder : List (Fin n)} (h : Placed served holder queue phase) (hi : i ∈ served) :
    phase i = .leaving ∨ phase i = .gone := by
  have hp := h.phase i
  have ho := h.once
  cases hi' : phase i <;> grind

theorem enter (h : Placed served [] queue phase) (hi : phase i = .outside) :
    Placed served [i] queue (put phase i .inside) where
  once := by
    have hp := h.phase i
    have ho := h.once
    grind
  free := by simp
  phase k := by
    have hp := h.phase k
    by_cases hk : k = i
    · simp [hk]
    · rw [put_ne hk]
      cases hk' : phase k <;> grind

theorem enqueue (h : Placed served [j] queue phase) (hi : phase i = .outside) :
    Placed served [j] (queue ++ [i]) (put phase i .queued) where
  once := by
    have hp := h.phase i
    have ho := h.once
    grind
  free := by simp
  phase k := by
    have hp := h.phase k
    by_cases hk : k = i
    · simp [hk]
    · rw [put_ne hk]
      cases hk' : phase k <;> grind

theorem leave (h : Placed served [i] [] phase) : Placed (served ++ [i]) [] [] (put phase i .leaving) where
  once := by simpa using h.once
  free _ := rfl
  phase k := by
    have hp := h.phase k
    by_cases hk : k = i
    · simp [hk]
    · rw [put_ne hk]
      cases hk' : phase k <;> grind

theorem hand (h : Placed served [i] (j :: queue) phase) :
    Placed (served ++ [i]) [j] queue (put (put phase i .leaving) j .inside) where
  once := by simpa using h.once
  free := by simp
  phase k := by
    have hp := h.phase k
    by_cases hj : k = j
    · simp [hj]
    · by_cases hk : k = i
      · rw [put_ne hj, hk]
        simp
      · rw [put_ne hj, put_ne hk]
        cases hk' : phase k <;> grind

theorem close {holder : List (Fin n)} (h : Placed served holder queue phase) (hi : phase i = .leaving) :
    Placed served holder queue (put phase i .gone) where
  once := h.once
  free := h.free
  phase k := by
    have hp := h.phase k
    by_cases hk : k = i
    · rw [hk, hi] at hp
      simpa [hk] using hp
    · rwa [put_ne hk]

end Placed

/-! ## Order -/

namespace Desk

def holder (d : Desk σ n) : List (Fin n) :=
  match d.hold with
  | .free _ _ => []
  | .taken i _ => [i]

/-- The tasks that have given the agent back, in order. -/
def served (d : Desk σ n) : List (Fin n) := d.log.map (·.1)

/-- The turns that are over, in order. -/
def past (d : Desk σ n) : List (Ending × Turn σ) := d.log.map (·.2)

variable {d : Desk σ n} {i : Fin n} {w : Work σ}

theorem holder_free {s : Session σ} {now : Nat} (h : d.hold = .free s now) : d.holder = [] := by
  simp [holder, h]

theorem holder_taken (h : d.hold = .taken i w) : d.holder = [i] := by
  simp [holder, h]

variable {ending : Ending} {t : Turn σ}

theorem leave_log : (d.leave jobs i ending t).log = d.log ++ [(i, ending, t)] := by
  unfold leave pass
  split <;> rfl

theorem leave_free (h : d.queue = []) : d.leave jobs i ending t =
    ⟨.free (.after t) t.clock.now, [], put d.phase i .leaving, d.log ++ [(i, ending, t)]⟩ := by
  simp [leave, pass, setPhase, h]

theorem leave_taken {j : Fin n} {queue : List (Fin n)} (h : d.queue = j :: queue) :
    d.leave jobs i ending t =
      ⟨.taken j (.start (.after t) t.clock.now (jobs j)), queue,
        put (put d.phase i .leaving) j .inside, d.log ++ [(i, ending, t)]⟩ := by
  simp [leave, pass, setPhase, take, h]

end Desk

/-- The agent is as the turns so far have left it, or runs the next one. -/
def Hold.Continues (a : Agent) (client : Client σ) (jobs : Fin n → Job) (left : Session σ × Nat) :
    Hold σ n → Prop
  | .free s now => (s, now) = left
  | .taken i w => a.rest client w.turn w.stage = left.1.turn a client left.2 (jobs i).1 (jobs i).2 ∧
      a.Traces client (jobs i).1 (.start left.1.context left.1.client ((jobs i).2.clock left.2)) w.turn w.stage

/-- The invariant of the desk, with the session and the instant it started from. -/
structure Orderly (a : Agent) (client : Client σ) (jobs : Fin n → Job) (s : Session σ) (now : Nat)
    (d : Desk σ n) : Prop where
  placed : Placed d.served d.holder d.queue d.phase
  past : d.past = s.turns a client now (d.served.map jobs)
  hold : d.hold.Continues a client jobs (s.left now d.past)

namespace Orderly

variable {s : Session σ} {now : Nat} {d d' : Desk σ n} {i : Fin n} {w : Work σ} {signal : Option Signal}

theorem start (a : Agent) (client : Client σ) (jobs : Fin n → Job) (s : Session σ) (now : Nat) :
    Orderly a client jobs s now (.start s now) :=
  ⟨.start, rfl, rfl⟩

theorem placed_free {s' : Session σ} {now' : Nat} (h : Orderly a client jobs s now d)
    (hh : d.hold = .free s' now') : Placed d.served [] d.queue d.phase :=
  d.holder_free hh ▸ h.placed

theorem placed_taken (h : Orderly a client jobs s now d) (hw : d.hold = .taken i w) :
    Placed d.served [i] d.queue d.phase :=
  d.holder_taken hw ▸ h.placed

/-- The task that has the agent goes on with the same turn. -/
theorem goOn {w' : Work σ} (h : Orderly a client jobs s now d) (hw : d.hold = .taken i w)
    (hr : a.rest client w'.turn w'.stage = a.rest client w.turn w.stage)
    (ht : ∀ {inputs t}, a.Traces client inputs t w.turn w.stage → a.Traces client inputs t w'.turn w'.stage) :
    Orderly a client jobs s now { d with hold := .taken i w' } := by
  have hc := h.hold
  rw [hw] at hc
  exact ⟨h.placed_taken hw, h.past, hr.trans hc.1, ht hc.2⟩

/-- The turn under way, which has ended, is the next one. -/
theorem ended {ending : Ending} (h : Orderly a client jobs s now d) (hw : d.hold = .taken i w)
    (he : w.stage = .ended ending) :
    d.past ++ [(ending, w.turn)] = s.turns a client now ((d.served ++ [i]).map jobs) := by
  have hc := h.hold
  rw [hw, Hold.Continues, he] at hc
  rw [List.map_append, Session.turns_append, ← h.past]
  exact congrArg (fun e => d.past ++ [e]) hc.1

theorem leave {ending : Ending} (h : Orderly a client jobs s now d) (hw : d.hold = .taken i w)
    (he : w.stage = .ended ending) : Orderly a client jobs s now (d.leave jobs i ending w.turn) := by
  have hp := h.placed_taken hw
  have hserved : (d.log ++ [(i, ending, w.turn)]).map (·.1) = d.served ++ [i] := by simp [Desk.served]
  have hpast : (d.log ++ [(i, ending, w.turn)]).map (·.2) = d.past ++ [(ending, w.turn)] := by
    simp [Desk.past]
  have hturns := h.ended hw he
  have hleft := s.left_append_singleton now d.past (ending, w.turn)
  rw [← hpast] at hturns hleft
  rw [← hserved] at hturns
  cases hq : d.queue with
  | nil =>
    rw [hq] at hp
    have hl := hp.leave
    rw [← hserved] at hl
    rw [Desk.leave_free hq]
    exact ⟨hl, hturns, hleft.symm⟩
  | cons j queue =>
    rw [hq] at hp
    have hl := hp.hand
    rw [← hserved] at hl
    rw [Desk.leave_taken hq]
    exact ⟨hl, hturns, hleft ▸ ⟨rfl, rfl, rfl⟩⟩

/-- **What every act keeps.** -/
theorem moves (h : Orderly a client jobs s now d) (hm : d.Moves a client jobs i (d', signal)) :
    Orderly a client jobs s now d' := by
  cases hm with
  | idle => exact h
  | @enter s' now' hi hh =>
    refine ⟨(h.placed_free hh).enter hi, h.past, ?_⟩
    have hc := h.hold
    rw [hh] at hc
    exact hc ▸ ⟨rfl, rfl, rfl⟩
  | @queue j w hi hh =>
    refine ⟨?_, h.past, h.hold⟩
    have hp := (h.placed_taken hh).enqueue hi
    rwa [← d.holder_taken hh] at hp
  | @step w hw he => exact h.goOn hw (a.step_rest client w.turn w.stage) Agent.step_traces
  | forward hw _ => exact h.goOn hw rfl id
  | tell hw _ _ _ => exact h.goOn hw rfl id
  | leave hw he _ => exact h.leave hw he
  | close hi => exact ⟨h.placed.close hi, h.past, h.hold⟩

/-- A turn that is stuck is one that hangs. -/
theorem stuck_hangs (h : Orderly a client jobs s now d) (hw : d.hold = .taken i w) (hs : w.stage.Stuck) :
    let left := s.left now d.past
    a.Hangs client (jobs i).1 (.start left.1.context left.1.client ((jobs i).2.clock left.2)) := by
  have hc := h.hold
  rw [hw] at hc
  exact hc.2.hangs hs

end Orderly

end Background
end ToolAgent
