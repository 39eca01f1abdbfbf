/-
What background turns hand out.

`Desk.Sends` says what a task has sent, by where it is: nothing before it has the agent, then
the events passed on so far, then all events and the last item. An outbox `Keeps` what was
sent, as long as there is a receiver. `State.Sound` ties the two to the order of turns.
-/
import ToolAgent.Proofs.Background.Order
import Mathlib.Data.List.Nodup

namespace ToolAgent.Background

variable {σ : Type} {n : Nat} {a : Agent} {client : Client σ} {jobs : Fin n → Job}

/-! ## Outboxes -/

namespace Outbox

/-- What was sent reaches the receiver in order, and all of it unless the receiver is gone. -/
structure Keeps (o : Outbox) (sent : List Output) : Prop where
  start : o.items <+: sent
  all : o.abandoned = false → o.items = sent

variable {o : Outbox} {sent : List Output}

theorem Keeps.empty : Outbox.empty.Keeps [] := ⟨List.prefix_rfl, fun _ => rfl⟩

theorem Keeps.send (h : o.Keeps sent) (x : Output) : (o.send x).Keeps (sent ++ [x]) := by
  unfold Outbox.send
  split
  next ha => exact ⟨h.start.trans (List.prefix_append _ _), fun hf => by simp [ha] at hf⟩
  next ha =>
    have he : received o ++ (waiting o ++ [x]) = sent ++ [x] := by
      rw [← List.append_assoc, ← h.all (by simpa using ha)]
      rfl
    exact ⟨he ▸ List.prefix_rfl, fun _ => he⟩

theorem Keeps.close (h : o.Keeps sent) : o.close.Keeps sent := ⟨h.start, h.all⟩

theorem receive_items (o : Outbox) : o.receive.items = o.items := by
  unfold receive
  split
  · rfl
  next x xs hw => simp [items, hw]

theorem receive_abandoned (o : Outbox) : o.receive.abandoned = o.abandoned := by
  unfold receive
  split <;> rfl

theorem receive_closed (o : Outbox) : o.receive.closed = o.closed := by
  unfold receive
  split <;> rfl

theorem Keeps.receive (h : o.Keeps sent) : o.receive.Keeps sent := by
  refine ⟨o.receive_items ▸ h.start, fun ha => ?_⟩
  rw [receive_items]
  exact h.all (o.receive_abandoned ▸ ha)

theorem Keeps.abandon (h : o.Keeps sent) : o.abandon.Keeps sent := by
  refine ⟨?_, fun ha => nomatch ha⟩
  have hp : o.abandon.items <+: o.items := by simp [Outbox.abandon, items]
  exact hp.trans h.start

theorem get_closed (o : Outbox) (signal : Signal) :
    (o.get signal).closed = true ↔ o.closed = true ∨ signal = .close := by
  cases signal with
  | send x =>
    simp only [get, send]
    split <;> simp
  | close => simp [get, close]

end Outbox

/-- The items of a signal, if there is one. -/
def Signal.items : Option Signal → List Output
  | some (.send x) => [x]
  | some .close | none => []

theorem Outbox.Keeps.get {o : Outbox} {sent : List Output} (h : o.Keeps sent) (signal : Signal) :
    (o.get signal).Keeps (sent ++ Signal.items (some signal)) := by
  cases signal with
  | send x => exact h.send x
  | close => simpa [Signal.items, Outbox.get] using h.close

/-- A task has one turn. -/
theorem Orderly.log_once {s : Session σ} {now : Nat} {d : Desk σ n} {i : Fin n} {e e' : Ending × Turn σ}
    (h : Orderly a client jobs s now d) (he : (i, e) ∈ d.log) (he' : (i, e') ∈ d.log) : e = e' := by
  have hn := h.placed.once
  rw [List.append_assoc] at hn
  have hserved : (d.log.map (·.1)).Nodup := (List.nodup_append.1 hn).1
  exact congrArg Prod.snd (List.inj_on_of_nodup_map hserved he he' rfl)

/-! ## What a task has sent -/

/-- What a task has sent so far. -/
inductive Desk.Sends (d : Desk σ n) (i : Fin n) : List Output → Prop
  | outside : d.phase i = .outside → Sends d i []
  | queued : d.phase i = .queued → Sends d i []
  | turning {w passed} : d.hold = .taken i w → w.told = false → w.turn.events = passed ++ w.pending →
      Sends d i (passed.map .event)
  | told {w ending} : d.hold = .taken i w → w.told = true → w.stage = .ended ending → w.pending = [] →
      Sends d i (outputs (ending, w.turn))
  | served {e} : (i, e) ∈ d.log → Sends d i (outputs e)

namespace Desk.Sends

variable {s : Session σ} {now : Nat} {d d' : Desk σ n} {i j : Fin n} {w : Work σ} {sent : List Output}
  {signal : Option Signal}

/-- Before it has the agent, a task has sent nothing. -/
theorem nil_of_waiting (h : d.Sends i sent) (ho : Orderly a client jobs s now d)
    (hi : d.phase i = .outside ∨ d.phase i = .queued) : sent = [] := by
  cases h with
  | outside | queued => rfl
  | turning hw | told hw => simp [(ho.placed_taken hw).inside] at hi
  | served he =>
    have hm : i ∈ d.served := List.mem_map_of_mem (f := (·.1)) he
    have hp := ho.placed.phase i
    have hn := ho.placed.once
    rcases hi with hi | hi <;> rw [hi] at hp <;> grind

/-- The task that has the agent has sent the events passed on, and the last item once it is told. -/
theorem of_taken (h : d.Sends i sent) (ho : Orderly a client jobs s now d) (hw : d.hold = .taken i w) :
    (w.told = false ∧ ∃ passed, w.turn.events = passed ++ w.pending ∧ sent = passed.map .event) ∨
    (w.told = true ∧ w.pending = [] ∧ ∃ ending, w.stage = .ended ending ∧ sent = outputs (ending, w.turn)) := by
  have hin := (ho.placed_taken hw).inside
  cases h with
  | outside hi | queued hi => rw [hi] at hin; cases hin
  | turning hw' ht he =>
    rw [hw] at hw'
    cases hw'
    exact .inl ⟨ht, _, he, rfl⟩
  | told hw' ht hs hp =>
    rw [hw] at hw'
    cases hw'
    exact .inr ⟨ht, hp, _, hs, rfl⟩
  | served he =>
    have hp := (ho.placed_taken hw).once
    have hm : i ∈ d.served := List.mem_map_of_mem (f := (·.1)) he
    grind

/-- A task that has just got the agent has sent nothing. -/
theorem begun (hw : d.hold = .taken i w) (ht : w.told = false) (he : w.turn.events = w.pending) :
    d.Sends i [] :=
  @turning _ _ _ _ w [] hw ht he

/-- What a task has sent does not change as long as the task stays where it is. -/
theorem keep (h : d.Sends i sent) (hp : d'.phase i = d.phase i) (hl : d.log ⊆ d'.log)
    (hh : ∀ w, d.hold = .taken i w → d'.hold = .taken i w) : d'.Sends i sent := by
  cases h with
  | outside hi => exact .outside (hp.trans hi)
  | queued hi => exact .queued (hp.trans hi)
  | turning hw ht he => exact .turning (hh _ hw) ht he
  | told hw ht hs hn => exact .told (hh _ hw) ht hs hn
  | served he => exact .served (hl he)

/-- A task that has given the agent back has sent all that its turn hands out. -/
theorem of_served {e : Ending × Turn σ} (h : d.Sends i sent) (ho : Orderly a client jobs s now d)
    (he : (i, e) ∈ d.log) : sent = outputs e := by
  have hm : i ∈ d.served := List.mem_map_of_mem (f := (·.1)) he
  have hplace := ho.placed.phase i
  have hn := ho.placed.once
  cases h with
  | outside hi => rw [hi] at hplace; grind
  | queued hi => rw [hi] at hplace; grind
  | turning hw | told hw =>
    have hn := (ho.placed_taken hw).once
    grind
  | served he' => rw [ho.log_once he' he]

/-- No act of a task sends anything for another. -/
theorem frame (h : d.Sends j sent) (ho : Orderly a client jobs s now d)
    (hm : d.Moves a client jobs i (d', signal)) (hj : j ≠ i) : d'.Sends j sent := by
  -- Another task has not the agent when this one has it.
  have hne : ∀ {w w'}, d.hold = .taken i w → d.hold ≠ .taken j w' := by
    intro w w' hw hw'
    rw [hw] at hw'
    cases hw'
    exact hj rfl
  cases hm with
  | idle => exact h
  | enter hi hh => exact h.keep (put_ne hj) (List.Subset.refl _) fun w hw => by rw [hh] at hw; cases hw
  | queue hi hh => exact h.keep (put_ne hj) (List.Subset.refl _) fun w hw => hw
  | step hw _ | forward hw _ | tell hw _ _ _ =>
    exact h.keep rfl (List.Subset.refl _) fun w' hw' => absurd hw' (hne hw)
  | @leave w ending hw he ht =>
    have hl : d.log ⊆ (d.leave jobs i ending w.turn).log := by
      rw [leave_log]
      exact List.subset_append_left _ _
    have hh : ∀ w', d.hold = .taken j w' → (d.leave jobs i ending w.turn).hold = .taken j w' :=
      fun w' hw' => absurd hw' (hne hw)
    cases hq : d.queue with
    | nil => exact h.keep (by rw [leave_free hq]; exact put_ne hj) hl hh
    | cons k queue =>
      by_cases hk : j = k
      · -- The other task gets the agent now.
        subst hk
        have hp : d.phase j = .queued := by
          have := ho.placed_taken hw
          rw [hq] at this
          exact this.queued
        obtain rfl := h.nil_of_waiting ho (.inr hp)
        rw [leave_taken hq]
        exact begun rfl rfl rfl
      · exact h.keep (by rw [leave_taken hq]; exact (put_ne hk).trans (put_ne hj)) hl hh
  | close hi => exact h.keep (put_ne hj) (List.Subset.refl _) fun w hw => hw

/-- What an act of a task sends comes behind what the task has sent before. -/
theorem moves (h : d.Sends i sent) (ho : Orderly a client jobs s now d)
    (hm : d.Moves a client jobs i (d', signal)) : d'.Sends i (sent ++ Signal.items signal) := by
  cases hm with
  | idle => simpa [Signal.items] using h
  | enter hi hh =>
    obtain rfl := h.nil_of_waiting ho (.inl hi)
    exact begun rfl rfl rfl
  | queue hi hh =>
    obtain rfl := h.nil_of_waiting ho (.inl hi)
    exact .queued (put_self _ _ _)
  | @step w hw he =>
    rcases h.of_taken ho hw with ⟨ht, passed, hev, rfl⟩ | ⟨-, -, ending, hs, -⟩
    · obtain ⟨new, hnew⟩ := (a.step_grows client w.turn w.stage).events
      simp only [Signal.items, List.append_nil]
      refine .turning rfl ht ?_
      simp only [Work.step]
      rw [← hnew, List.drop_left, hev, List.append_assoc]
    · exact absurd hs (he ending)
  | @forward w e pending hw hp =>
    rcases h.of_taken ho hw with ⟨ht, passed, hev, rfl⟩ | ⟨-, hn, -⟩
    · have hs : passed.map Output.event ++ [.event e] = (passed ++ [e]).map .event := by simp
      simp only [Signal.items, hs]
      exact .turning rfl ht (by simp [hev, hp])
    · rw [hp] at hn
      cases hn
  | @tell w ending hw he ht hp =>
    rcases h.of_taken ho hw with ⟨-, passed, hev, rfl⟩ | ⟨ht', -⟩
    · obtain rfl : w.turn.events = passed := by simpa [hp] using hev
      exact .told (w := { w with told := true }) rfl rfl he hp
    · rw [ht] at ht'
      cases ht'
  | @leave w ending hw he ht =>
    rcases h.of_taken ho hw with ⟨ht', -⟩ | ⟨-, -, ending', hs, rfl⟩
    · rw [ht] at ht'
      cases ht'
    · rw [he] at hs
      cases hs
      simp only [Signal.items, List.append_nil]
      exact .served (by simp [leave_log])
  | close hi =>
    simp only [Signal.items, List.append_nil]
    cases h with
    | outside hi' | queued hi' => rw [hi] at hi'; cases hi'
    | turning hw | told hw => rw [(ho.placed_taken hw).inside] at hi; cases hi
    | served he => exact .served he

end Desk.Sends

/-! ## Closing -/

/-- A task is gone when it has closed its outbox, and not before. -/
theorem Desk.Moves.gone {s : Session σ} {now : Nat} {d d' : Desk σ n} {i : Fin n} {signal : Option Signal}
    (ho : Orderly a client jobs s now d) (hm : d.Moves a client jobs i (d', signal)) (j : Fin n) :
    d'.phase j = .gone ↔ d.phase j = .gone ∨ (j = i ∧ signal = some .close) := by
  have hput : ∀ {f : Fin n → Phase} {k p}, f k ≠ .gone → p ≠ .gone → (put f k p j = .gone ↔ f j = .gone) := by
    intro f k p hf hp
    by_cases hj : j = k
    · subst hj
      simp [hf, hp]
    · rw [put_ne hj]
  cases hm with
  | idle | step | forward | tell => simp
  | enter hi _ | queue hi _ =>
    simp only [take, setPhase, reduceCtorEq, and_false, or_false]
    exact hput (by simp [hi]) (by simp)
  | @leave w ending hw he ht =>
    have hp := ho.placed_taken hw
    simp only [reduceCtorEq, and_false, or_false]
    cases hq : d.queue with
    | nil =>
      rw [leave_free hq]
      exact hput (by simp [hp.inside]) (by simp)
    | cons k queue =>
      rw [hq] at hp
      rw [leave_taken hq]
      have hk : put d.phase i .leaving k ≠ .gone := by
        by_cases hki : k = i
        · simp [hki]
        · simp [put_ne hki, hp.queued]
      exact (hput hk (by simp)).trans (hput (by simp [hp.inside]) (by simp))
  | close hi =>
    simp only [setPhase, and_true]
    by_cases hj : j = i
    · simp [hj]
    · simp [put_ne hj, hj]

/-! ## Whole states -/

/-- The invariant of schedules. -/
structure State.Sound (a : Agent) (client : Client σ) (jobs : Fin n → Job) (s : Session σ) (now : Nat)
    (b : State σ n) : Prop where
  orderly : Orderly a client jobs s now b.desk
  outbox : ∀ i, ∃ sent, b.desk.Sends i sent ∧ (b.outbox i).Keeps sent
  closed : ∀ i, (b.outbox i).closed = true ↔ b.desk.phase i = .gone

namespace State.Sound

variable {s : Session σ} {now : Nat} {b : State σ n} {i : Fin n}

theorem start (a : Agent) (client : Client σ) (jobs : Fin n → Job) (s : Session σ) (now : Nat) :
    (State.start s now).Sound a client jobs s now where
  orderly := .start a client jobs s now
  outbox i := ⟨[], .outside rfl, .empty⟩
  closed i := by simp [State.start, Desk.start, Outbox.empty]

theorem after {d : Desk σ n} {signal : Option Signal} (h : b.Sound a client jobs s now)
    (hm : b.desk.Moves a client jobs i (d, signal)) : (b.after i (d, signal)).Sound a client jobs s now := by
  have ho := h.orderly.moves hm
  cases signal with
  | none =>
    refine ⟨ho, fun j => ?_, fun j => ?_⟩
    · obtain ⟨sent, hs, hk⟩ := h.outbox j
      by_cases hj : j = i
      · subst hj
        have hsent := hs.moves h.orderly hm
        rw [Signal.items, List.append_nil] at hsent
        exact ⟨sent, hsent, hk⟩
      · exact ⟨sent, hs.frame h.orderly hm hj, hk⟩
    · exact (h.closed j).trans (by simp [State.after, hm.gone h.orderly j])
  | some signal =>
    refine ⟨ho, fun j => ?_, fun j => ?_⟩
    · obtain ⟨sent, hs, hk⟩ := h.outbox j
      by_cases hj : j = i
      · subst hj
        refine ⟨_, hs.moves h.orderly hm, ?_⟩
        simpa [State.after, setOutbox] using hk.get signal
      · exact ⟨sent, hs.frame h.orderly hm hj, by simpa [State.after, setOutbox, put_ne hj] using hk⟩
    · by_cases hj : j = i
      · subst hj
        simp [State.after, setOutbox, hm.gone h.orderly j, Outbox.get_closed, h.closed j]
      · simp [State.after, setOutbox, put_ne hj, hm.gone h.orderly j, h.closed j, hj]

/-- What the receiver does touches nothing but its own outbox. -/
theorem receiver {o : Outbox} (h : b.Sound a client jobs s now)
    (hk : ∀ sent, (b.outbox i).Keeps sent → o.Keeps sent) (hc : o.closed = (b.outbox i).closed) :
    (b.setOutbox i o).Sound a client jobs s now := by
  refine ⟨h.orderly, fun j => ?_, fun j => ?_⟩
  · obtain ⟨sent, hs, hj⟩ := h.outbox j
    refine ⟨sent, hs, ?_⟩
    by_cases hji : j = i
    · subst hji
      simpa [setOutbox] using hk sent hj
    · simpa [setOutbox, put_ne hji] using hj
  · by_cases hji : j = i
    · subst hji
      simpa [setOutbox, hc] using h.closed j
    · simpa [setOutbox, put_ne hji] using h.closed j

theorem perform (h : b.Sound a client jobs s now) (act : Act n) :
    (b.perform a client jobs act).Sound a client jobs s now := by
  cases act with
  | advance i => exact h.after (b.desk.advance_moves i)
  | forward i => exact h.after (b.desk.forward_moves i)
  | receive i => exact h.receiver (fun _ hk => hk.receive) (b.outbox i).receive_closed
  | abandon i => exact h.receiver (fun _ hk => hk.abandon) rfl

theorem run (h : b.Sound a client jobs s now) (acts : List (Act n)) :
    (b.run a client jobs acts).Sound a client jobs s now := by
  induction acts generalizing b with
  | nil => exact h
  | cons act acts ih => exact ih (h.perform act)

end State.Sound
end ToolAgent.Background
