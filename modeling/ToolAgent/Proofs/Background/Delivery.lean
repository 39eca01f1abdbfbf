/-
What the receiver of a background turn gets.

However the tasks are scheduled, it is what the turn hands out (`Agent.HandsOut`): the events
of the turn in their order, one last item that says how it ended, and then the end of the
channel. Only a task behind a turn that hangs, or whose own turn does, gets no last item
(`Starves`). A receiver that keeps on receiving gets all of it at some time (`Outbox.drained`).
Nothing but the outbox depends on the receivers.
-/
import ToolAgent.Proofs.Background.Serial
import ToolAgent.Proofs.Turn.Breakdown

namespace ToolAgent

variable {σ : Type}

/-- What a turn hands out: its events, and one last item. That is the response, which tells the
same events, or the error. A breakdown of a collaborator counts as an internal error. -/
structure Agent.HandsOut (a : Agent) (client : Client σ) (inputs : List ChatMessage) (t : Turn σ)
    (ended : Ending × Turn σ) (items : List Output) : Prop where
  once : ∃ last : Output, last.isTerminal = true ∧ items = ended.2.events.map .event ++ [last]
  response : ∀ r, ended.1 = .ok r → items = r.innerMessages.map .event ++ [.response r]
  error : ∀ e, ended.1 = .error (.error e) → items = ended.2.events.map .event ++ [.error e]
  panic : ∀ payload, a.BreaksDown client inputs t payload →
    items = ended.2.events.map .event ++ [.error (.internal payload.message)]

theorem Agent.turn_handsOut {a : Agent} {client : Client σ} {inputs : List ChatMessage} {t : Turn σ}
    (ht : t.inquiries = []) :
    a.HandsOut client inputs t (a.turn client inputs t) (outputs (a.turn client inputs t)) where
  once := by
    refine ⟨_, ?_, rfl⟩
    cases (a.turn client inputs t).1 with
    | ok r | error stop => rfl
  response r h := by
    rw [Agent.turn_innerMessages h, outputs, h]
    rfl
  error e h := by
    rw [outputs, h]
    rfl
  panic payload h := by
    rw [outputs, (Agent.turn_panic ht).2 h]
    rfl

namespace Background

variable {n : Nat} {a : Agent} {client : Client σ} {jobs : Fin n → Job}

namespace State

variable {s : Session σ} {now : Nat} {b : State σ n} {acts : Nat → Act n} {i : Fin n}

/-! ## Receivers -/

/-- All that an act can do to an outbox. -/
theorem perform_outbox (b : State σ n) (act : Act n) (i : Fin n) :
    let o' := (b.perform a client jobs act).outbox i
    (act ≠ .receive i ∧ o' = b.outbox i) ∨ (∃ signal, o' = (b.outbox i).get signal) ∨
      (act = .receive i ∧ o' = (b.outbox i).receive) ∨ (act = .abandon i ∧ o' = (b.outbox i).abandon) := by
  have hafter : ∀ j (done : Desk σ n × Option Signal), (b.after j done).outbox i = b.outbox i ∨
      ∃ signal, (b.after j done).outbox i = (b.outbox i).get signal := by
    intro j ⟨d, signal⟩
    cases signal with
    | none => exact .inl rfl
    | some signal =>
      by_cases hi : i = j
      · subst hi
        exact .inr ⟨signal, put_self _ _ _⟩
      · exact .inl (put_ne hi)
  cases act with
  | advance j | forward j => exact (hafter j _).imp (fun h => ⟨by simp, h⟩) .inl
  | receive j =>
    by_cases hi : i = j
    · subst hi
      exact .inr (.inr (.inl ⟨rfl, put_self _ _ _⟩))
    · exact .inl ⟨by simpa using Ne.symm hi, put_ne hi⟩
  | abandon j =>
    by_cases hi : i = j
    · subst hi
      exact .inr (.inr (.inr ⟨rfl, put_self _ _ _⟩))
    · exact .inl ⟨by simp, put_ne hi⟩

/-- A receiver that never leaves, and never stops receiving. -/
structure Attentive (acts : Nat → Act n) (i : Fin n) : Prop where
  stays : ∀ k, acts k ≠ .abandon i
  receives : ∀ k, ∃ l, k ≤ l ∧ acts l = .receive i

theorem roundRobin_attentive [NeZero n] (i : Fin n) : Attentive (roundRobin n) i where
  stays k := by
    unfold roundRobin Act.inTurn
    split <;> simp
  receives k := ⟨_, le_round i k 2, roundRobin_round i k (by omega)⟩

theorem play_abandoned (h : Attentive acts i) (hb : (b.outbox i).abandoned = false) (k : Nat) :
    ((b.play a client jobs acts k).outbox i).abandoned = false := by
  induction k with
  | zero => exact hb
  | succ k ih =>
    rw [play_succ]
    rcases (b.play a client jobs acts k).perform_outbox (acts k) i with
      ⟨-, ho⟩ | ⟨signal, ho⟩ | ⟨-, ho⟩ | ⟨ha, -⟩
    · rwa [ho]
    · rw [ho]
      cases signal with
      | send x => simp [Outbox.get, Outbox.send, ih]
      | close => exact ih
    · rwa [ho, Outbox.receive_abandoned]
    · exact absurd ha (h.stays k)

theorem perform_received (b : State σ n) (act : Act n) (i : Fin n) :
    (b.outbox i).received <+: ((b.perform a client jobs act).outbox i).received := by
  rcases b.perform_outbox act i with ⟨-, ho⟩ | ⟨signal, ho⟩ | ⟨-, ho⟩ | ⟨-, ho⟩
  · rw [ho]
  · rw [ho]
    cases signal with
    | send x =>
      simp only [Outbox.get, Outbox.send]
      split <;> exact List.prefix_rfl
    | close => exact List.prefix_rfl
  · rw [ho, Outbox.receive]
    split
    · exact List.prefix_rfl
    · exact List.prefix_append _ _
  · rw [ho]
    exact List.prefix_rfl

theorem play_received (a : Agent) (client : Client σ) (jobs : Fin n → Job) (b : State σ n) (acts : Nat → Act n)
    (i : Fin n) {k l : Nat} (hl : k ≤ l) :
    ((b.play a client jobs acts k).outbox i).received <+: ((b.play a client jobs acts l).outbox i).received := by
  induction l, hl using Nat.le_induction with
  | base => exact List.prefix_rfl
  | succ l hl ih =>
    rw [play_succ]
    exact ih.trans (perform_received _ _ _)

/-- Turns that are over stay in the log. -/
theorem play_log (b : State σ n) (acts : Nat → Act n) {k l : Nat} (hl : k ≤ l) :
    (b.play a client jobs acts k).desk.log <+: (b.play a client jobs acts l).desk.log := by
  obtain ⟨more, hmore⟩ := b.play_run a client jobs acts hl
  rw [hmore]
  exact (State.run_grows _ more).log

/-- A task that has given the agent back comes to its end. -/
theorem Sound.served_gone {k : Nat} (h : b.Sound a client jobs s now) (hf : Fair acts)
    (hi : i ∈ (b.play a client jobs acts k).desk.served) :
    ∃ l, ∀ m, l ≤ m → (b.play a client jobs acts m).desk.phase i = .gone := by
  obtain ⟨l, hl, hact⟩ := (hf i k).1
  refine ⟨l + 1, fun m hm => h.gone_mono hm ?_⟩
  have hserved : i ∈ (b.play a client jobs acts l).desk.served := ((b.play_log acts hl).map _).subset hi
  rw [b.play_succ acts l, perform_desk, hact]
  rcases (h.play acts l).orderly.placed.of_served hserved with hp | hp <;>
    simp [Desk.perform, Desk.advance, Desk.setPhase, hp]

/-- What there is for a receiver at any moment, when the turn is over at some time. -/
theorem Sound.play_items {K : Nat} {e : Ending × Turn σ} (h : b.Sound a client jobs s now)
    (he : (i, e) ∈ (b.play a client jobs acts K).desk.log) (k : Nat) :
    let o := (b.play a client jobs acts k).outbox i
    o.items <+: outputs e ∧ (o.closed = true → o.abandoned = false → o.items = outputs e) := by
  intro o
  have hsound := h.play acts k
  obtain ⟨more, hmore⟩ := b.play_run a client jobs acts (Nat.le_max_left k K)
  have hlast : (i, e) ∈ ((b.play a client jobs acts k).run a client jobs more).desk.log := by
    rw [← hmore]
    exact (b.play_log acts (Nat.le_max_right k K)).subset he
  refine ⟨hsound.items_start more hlast, fun hc ha => ?_⟩
  have hp := hsound.orderly.placed.phase i
  rw [(hsound.closed i).1 hc] at hp
  -- The channel is closed, so the turn is in the log, and it is in it once.
  obtain ⟨⟨j, e'⟩, he', rfl⟩ := List.mem_map.1 hp
  rw [(hsound.run more).orderly.log_once hlast ((State.run_grows _ more).log.subset he')]
  exact hsound.items_eq he' ha

end State

/-- When nothing more comes, a receiver that receives again and again has got everything at some time. -/
theorem Outbox.drained {o : Nat → Outbox} {all : List Output} {k : Nat}
    (hall : ∀ l, k ≤ l → (o l).items = all) (hgrows : ∀ l m, l ≤ m → (o l).received <+: (o m).received)
    (hreceives : ∀ l, ∃ m, l ≤ m ∧ o (m + 1) = (o m).receive) :
    ∃ m, ∀ l, m ≤ l → (o l).received = all ∧ (o l).waiting = [] := by
  have hlength : ∀ l, k ≤ l → (o l).received.length + (o l).waiting.length = all.length := by
    intro l hl
    rw [← hall l hl, items, List.length_append]
  -- There is a time at which nothing waits, by induction on what is still to be received.
  have hempty : ∀ missing l, k ≤ l → all.length - (o l).received.length = missing →
      ∃ m, k ≤ m ∧ (o m).waiting = [] := by
    intro missing
    induction missing using Nat.strong_induction_on with
    | h missing ih =>
      intro l hl hmissing
      obtain ⟨m, hm, hr⟩ := hreceives l
      cases hw : (o m).waiting with
      | nil => exact ⟨m, by omega, hw⟩
      | cons x waiting =>
        have hmore : (o (m + 1)).received = (o m).received ++ [x] := by simp [hr, receive, hw]
        have hbefore := (hgrows l m hm).length_le
        have hafter := hlength (m + 1) (by omega)
        rw [hmore, List.length_append, List.length_singleton] at hafter
        refine ih _ ?_ (m + 1) (by omega) rfl
        rw [hmore, List.length_append, List.length_singleton]
        omega
  obtain ⟨m, hm, hw⟩ := hempty _ k (Nat.le_refl k) rfl
  refine ⟨m, fun l hl => ?_⟩
  have hreceived : (o m).received = all := by
    rw [← hall m hm, items, hw, List.append_nil]
  have hlater := hreceived ▸ hgrows m l hl
  have hlen := hlength l (by omega)
  have hle := hlater.length_le
  exact ⟨(hlater.eq_of_length (by omega)).symm, List.eq_nil_of_length_eq_zero (by omega)⟩

theorem State.play_drained {b : State σ n} {acts : Nat → Act n} {i : Fin n} {all : List Output} {k : Nat}
    (hr : Attentive acts i) (hall : ∀ l, k ≤ l → ((b.play a client jobs acts l).outbox i).items = all) :
    ∃ m, ∀ l, m ≤ l → ((b.play a client jobs acts l).outbox i).received = all ∧
      ((b.play a client jobs acts l).outbox i).waiting = [] := by
  refine Outbox.drained hall (fun k l hl => play_received a client jobs b acts i hl) fun k => ?_
  obtain ⟨l, hl, he⟩ := hr.receives k
  refine ⟨l, hl, ?_⟩
  rw [play_succ, he]
  exact put_self _ _ _

/-! ## Starving -/

/-- From some time on the agent is with a task whose turn hangs, and stays there. A task that has not given
the agent back by then never comes to its end: its channel stays open, and nothing but events is sent. -/
def Starves (a : Agent) (client : Client σ) (jobs : Fin n → Job) (s : Session σ) (now : Nat)
    (play : Nat → State σ n) (i : Fin n) : Prop :=
  ∃ k j, (let left := s.left now (play k).desk.past
      a.Hangs client (jobs j).1 (.start left.1.context left.1.client ((jobs j).2.clock left.2))) ∧
    ∀ l, k ≤ l → (∃ w, (play l).desk.hold = .taken j w ∧ w.stage.Stuck) ∧
      ((play l).outbox i).closed = false ∧ ∀ x ∈ ((play l).outbox i).items, x.isTerminal = false

/-- A task sends its last item when its turn has ended. -/
theorem Desk.Sends.no_last {d : Desk σ n} {i j : Fin n} {w : Work σ} {sent : List Output} (h : d.Sends i sent)
    (hw : d.hold = .taken j w) (hs : w.stage.Stuck) (hi : i ∉ d.served) : ∀ x ∈ sent, x.isTerminal = false := by
  cases h with
  | outside | queued => simp
  | turning => simp [Output.isTerminal]
  | told hw' _ he _ =>
    cases hw.symm.trans hw'
    rw [he] at hs
    exact hs.elim
  | served he => exact absurd (List.mem_map_of_mem he) hi

theorem State.Sound.starves {s : Session σ} {now : Nat} {b : State σ n} {acts : Nat → Act n} {i j : Fin n} {k : Nat}
    {w : Work σ} (h : b.Sound a client jobs s now) (hw : (b.play a client jobs acts k).desk.hold = .taken j w)
    (hs : w.stage.Stuck) (hi : i ∉ (b.play a client jobs acts k).desk.served) :
    Starves a client jobs s now (b.play a client jobs acts) i := by
  refine ⟨k, j, (h.play acts k).orderly.stuck_hangs hw hs, fun l hl => ?_⟩
  have hsound := h.play acts l
  obtain ⟨hlog, w', hw', hs'⟩ := State.play_stuck hl hw hs
  have hi' : i ∉ (b.play a client jobs acts l).desk.served := by
    rw [Desk.served, hlog]
    exact hi
  refine ⟨⟨w', hw', hs'⟩, Bool.eq_false_iff.2 fun hc => hi' ?_, fun x hx => ?_⟩
  · have hp := hsound.orderly.placed.phase i
    rwa [(hsound.closed i).1 hc] at hp
  · obtain ⟨sent, hsends, hkeeps⟩ := hsound.outbox i
    exact hsends.no_last hw' hs' hi' x (hkeeps.start.subset hx)

/-! ## Delivery -/

/-- **What a background turn hands out.** On every fair schedule, whatever turns run beside it, a task
runs its turn from the session and the instant that the turns `before` it left, unless one of these turns
hangs, or its own: then it never comes to its end. Else the receiver has at any moment, or can still
get, a beginning of what the turn hands out, and all of it, unless it has left, when the channel
closes. That it does at some time, and a receiver that keeps receiving has got everything at some
time. If no turn is ever stuck, all tasks come to their end, and the agent is free for later turns.
And whatever receivers do, the agent, the requests and the notices are the same after the same acts
of the tasks. -/
theorem delivers (a : Agent) (client : Client σ) (jobs : Fin n → Job) (s : Session σ) (now : Nat)
    (acts : Nat → Act n) (hf : Fair acts) (i : Fin n) :
    let play := (State.start s now).play a client jobs acts
    (Starves a client jobs s now play i ∨ ∃ before : List (Ending × Turn σ),
      let left := s.left now before
      let start := Turn.start left.1.context left.1.client ((jobs i).2.clock left.2)
      let ended := a.turn client (jobs i).1 start
      a.HandsOut client (jobs i).1 start ended (outputs ended) ∧
      (∀ k, ((play k).outbox i).items <+: outputs ended ∧
        (((play k).outbox i).closed = true → ((play k).outbox i).abandoned = false →
          ((play k).outbox i).items = outputs ended)) ∧
      (∃ k, ∀ l, k ≤ l → ((play l).outbox i).closed = true ∧ (i, ended) ∈ (play l).desk.log ∧
        before ++ [ended] <+: (play l).desk.past) ∧
      (State.Attentive acts i → ∃ k, ∀ l, k ≤ l → ((play l).outbox i).received = outputs ended ∧
        ((play l).outbox i).waiting = [])) ∧
    ((∀ k, ¬ (play k).desk.Stuck) → ∃ k, ∀ l, k ≤ l → (play l).Finished ∧
      (play l).desk.hold = .free (s.left now (play l).desk.past).1 (s.left now (play l).desk.past).2) ∧
    ∀ k acts', acts'.filter Act.ofTask = (upTo acts k).filter Act.ofTask →
      ((State.start s now).run a client jobs acts').desk = (play k).desk := by
  intro play
  have hstart := State.Sound.start a client jobs s now
  have hsound : ∀ k, (play k).Sound a client jobs s now := hstart.play acts
  obtain ⟨K, hK⟩ := hstart.finishes hf
  refine ⟨?_, fun hs => ?_, ?_⟩
  · by_cases hi : i ∈ (play K).desk.served
    · right
      obtain ⟨before, after, hpast, hmem⟩ := (hsound K).orderly.past_split hi
      refine ⟨before, ?_⟩
      intro left start ended
      have hitems := hstart.play_items hmem
      obtain ⟨L, hgone⟩ := hstart.served_gone hf hi
      have hclosed : ∀ k, L ≤ k → ((play k).outbox i).closed = true :=
        fun k hk => ((hsound k).closed i).2 (hgone k hk)
      refine ⟨Agent.turn_handsOut rfl, hitems, ⟨max K L, fun k hk => ?_⟩, fun hr => ?_⟩
      · obtain ⟨hKk, hLk⟩ := Nat.max_le.1 hk
        have hlog : (play K).desk.log <+: (play k).desk.log := State.play_log _ acts hKk
        refine ⟨hclosed k hLk, hlog.subset hmem, ?_⟩
        have hbefore : before ++ [ended] <+: (play K).desk.past := ⟨after, by rw [hpast, List.append_assoc]; rfl⟩
        exact hbefore.trans (hlog.map _)
      · have hall : ∀ k, L ≤ k → ((play k).outbox i).items = outputs ended :=
          fun k hk => (hitems k).2 (hclosed k hk) (State.play_abandoned hr rfl k)
        exact State.play_drained hr hall
    · left
      rcases hK with hK | ⟨j, w, hw, hs⟩
      · exact absurd (((hsound K).orderly.served_of_gone hK).2.mem_iff.2 (List.mem_finRange i)) hi
      · exact hstart.starves hw hs hi
  · refine ⟨K, fun k hk => ?_⟩
    have hgone : (play k).Finished := fun j => hstart.gone_mono hk (hK.resolve_right (hs K) j)
    exact ⟨hgone, (hsound k).orderly.free_of_gone hgone⟩
  · intro k acts' hsame
    rw [State.run_ofTask acts' _ (State.start s now) rfl, hsame]
    exact (State.run_ofTask (upTo acts k) _ _ rfl).symm

/-- An agent whose memory recalls something and then breaks down. -/
def forgetful : Agent :=
  { Agent.forecaster with
    memory := Agent.forecaster.memory ++ [.scripted "index" [] false (.panic (.text "index corrupted"))] }

theorem forgetful_not_hangs {client : Client σ} {inputs : List ChatMessage} {t : Turn σ} :
    ¬ forgetful.Hangs client inputs t := by
  rintro ⟨_, _, ⟨_, _, _, -, hm, -⟩, -⟩
  simp [forgetful, Agent.forecaster, Agent.augment, Provider.scripted] at hm

/-- Beside another turn that breaks down, the receiver gets what its own turn recalled, and an error. -/
theorem delivers_breakdown :
    let jobs : Fin 2 → Job := fun _ => ([.text "Weather?" "user" none], .never)
    let play := (State.start ⟨.unbounded, .forecast⟩ 0).play forgetful (Replay.client .usual) jobs (roundRobin 2)
    Fair (roundRobin 2) ∧ ∃ k, ((play k).outbox 1).received =
      [.event (.memoryQuery [.ofText "It rains."] "forecaster"), .error (.internal "index corrupted")] := by
  intro jobs play
  refine ⟨roundRobin_fair 2, ?_⟩
  obtain ⟨⟨_, _, hhangs, -⟩ | ⟨before, -, -, -, hreceived⟩, -⟩ := delivers forgetful (Replay.client .usual) jobs
    ⟨.unbounded, .forecast⟩ 0 (roundRobin 2) (roundRobin_fair 2) 1
  · exact absurd hhangs forgetful_not_hangs
  · obtain ⟨k, hk⟩ := hreceived (State.roundRobin_attentive 1)
    exact ⟨k, (hk k (Nat.le_refl k)).1⟩

end Background
end ToolAgent
