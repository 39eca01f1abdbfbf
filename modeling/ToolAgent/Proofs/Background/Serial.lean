/-
Background turns come to the same as turns one after another.

The tasks get the agent in the order in which they ask for it (`State.run_asked`). At any
moment the log and the requests are those of the turns one after another, as far as these
have come (`Desk.Moves.grows`), and in the end they are complete (`Orderly.served_of_gone`).
-/
import ToolAgent.Client.Replay
import ToolAgent.Proofs.Background.Progress
import Mathlib.Data.List.FinRange

namespace ToolAgent

variable {σ : Type}

namespace Background

variable {n : Nat} {a : Agent} {client : Client σ} {jobs : Fin n → Job}

/-! ## Who asks first is served first -/

/-- The task whose first party acts. -/
def Act.asker : Act n → Option (Fin n)
  | .advance i => some i
  | _ => none

/-- The tasks that have asked for the agent, in order. -/
def Desk.asked (d : Desk σ n) : List (Fin n) := d.served ++ d.holder ++ d.queue

theorem eraseDups_snoc {α : Type} [DecidableEq α] (xs : List α) (x : α) :
    (xs ++ [x]).eraseDups = if x ∈ xs then xs.eraseDups else xs.eraseDups ++ [x] := by
  rw [List.eraseDups_append]
  split
  next h => simp [List.removeAll, h]
  next h =>
    have hr : [x].removeAll xs = [x] := by simp [List.removeAll, h]
    rw [hr]
    rfl

/-- The tasks in the order of their first acts. -/
def askers (acts : List (Act n)) : List (Fin n) := (acts.filterMap Act.asker).eraseDups

theorem mem_askers {acts : List (Act n)} {i : Fin n} : i ∈ askers acts ↔ i ∈ acts.filterMap Act.asker :=
  List.mem_eraseDups

theorem askers_advance (acts : List (Act n)) (i : Fin n) :
    askers (acts ++ [.advance i]) = if i ∈ askers acts then askers acts else askers acts ++ [i] := by
  simp only [mem_askers]
  rw [askers, List.filterMap_append]
  exact eraseDups_snoc _ i

theorem askers_of_none {acts : List (Act n)} {act : Act n} (h : act.asker = none) :
    askers (acts ++ [act]) = askers acts := by
  simp [askers, h]

namespace Desk

variable {d d' : Desk σ n} {i : Fin n} {w : Work σ} {signal : Option Signal}

theorem leave_asked {ending : Ending} {t : Turn σ} (hw : d.hold = .taken i w) :
    (d.leave jobs i ending t).asked = d.asked := by
  cases hq : d.queue with
  | nil => simp [leave_free hq, asked, served, holder, hw, hq]
  | cons k queue => simp [leave_taken hq, asked, served, holder, hw, hq]

/-- A task that has asked keeps its place. -/
theorem Moves.asked (hm : d.Moves a client jobs i (d', signal)) (hi : d.phase i ≠ .outside) :
    d'.asked = d.asked := by
  cases hm with
  | idle | close => rfl
  | enter ho _ | queue ho _ => exact absurd ho hi
  | step hw _ | forward hw _ | tell hw _ _ _ => simp [Desk.asked, served, holder, hw]
  | leave hw _ _ => exact leave_asked hw

/-- A task that has not asked yet comes last. -/
theorem advance_asked (h : Placed d.served d.holder d.queue d.phase)
    (hi : d.phase i = .outside) : (d.advance a client jobs i).1.asked = d.asked ++ [i] := by
  cases hh : d.hold with
  | free s now =>
    have hq : d.queue = [] := h.free (holder_free hh)
    simp [advance, hi, ask, hh, take, setPhase, Desk.asked, Desk.served, holder, hq]
  | taken j w => simp [advance, hi, ask, hh, setPhase, Desk.asked, Desk.served, holder]

theorem forward_asked (d : Desk σ n) (i : Fin n) : (d.forward i).1.asked = d.asked := by
  unfold forward
  split
  next j w hw =>
    split
    · split
      · simp [Desk.asked, served, holder, hw]
      · rfl
    · rfl
  · rfl

end Desk

/-- The tasks have asked for the agent in the order of their first acts. -/
theorem State.run_asked (a : Agent) (client : Client σ) (jobs : Fin n → Job) (s : Session σ) (now : Nat)
    (acts : List (Act n)) : ((State.start s now).run a client jobs acts).desk.asked = askers acts := by
  induction acts using List.reverseRecOn with
  | nil => rfl
  | append_singleton acts act ih =>
    have ho := ((State.Sound.start a client jobs s now).run acts).orderly
    rw [State.run_append]
    show (State.perform a client jobs _ act).desk.asked = _
    rw [State.perform_desk]
    cases act with
    | advance i =>
      rw [askers_advance, ← ih]
      by_cases hi : ((State.start s now).run a client jobs acts).desk.phase i = .outside
      · have hp := ho.placed.phase i
        rw [hi] at hp
        refine Eq.trans ?_ (if_neg hp).symm
        exact Desk.advance_asked ho.placed hi
      · have hp : i ∈ ((State.start s now).run a client jobs acts).desk.asked := by
          have hp := ho.placed.phase i
          unfold Desk.asked
          split at hp
          next h => exact absurd h hi
          all_goals simp [hp]
        rw [if_pos hp]
        exact (Desk.advance_moves _ i).asked hi
    | forward i => rw [askers_of_none rfl, ← ih]; exact Desk.forward_asked _ i
    | receive i | abandon i => rw [askers_of_none rfl, ← ih]; rfl

/-! ## The log and the requests -/

namespace Desk

/-- All requests so far: those of the turns that are over, and then those of the turn under way. -/
def requests (d : Desk σ n) : List Request :=
  d.past.flatMap (·.2.requests) ++
    match d.hold with
    | .free _ _ => []
    | .taken _ w => w.turn.requests

/-- The log and the requests are never taken back. -/
structure Grows (d d' : Desk σ n) : Prop where
  log : d.log <+: d'.log
  requests : d.requests <+: d'.requests

variable {d d' d'' : Desk σ n} {i : Fin n} {w w' : Work σ} {signal : Option Signal}

theorem Grows.refl (d : Desk σ n) : d.Grows d := ⟨List.prefix_rfl, List.prefix_rfl⟩

theorem Grows.trans (h : d.Grows d') (h' : d'.Grows d'') : d.Grows d'' :=
  ⟨h.log.trans h'.log, h.requests.trans h'.requests⟩

theorem leave_requests {ending : Ending} (hw : d.hold = .taken i w) :
    (d.leave jobs i ending w.turn).requests = d.requests := by
  have hnew : ∀ (s : Session σ) now job, (Work.start s now job).turn.requests = [] := fun _ _ _ => rfl
  cases hq : d.queue with
  | nil => simp [leave_free hq, requests, past, hw]
  | cons k queue => simp [leave_taken hq, requests, past, hw, hnew]

theorem grows_of_turn (hw : d.hold = .taken i w) (h : w.turn.inquiries <+: w'.turn.inquiries) :
    d.Grows { d with hold := .taken i w' } := by
  refine ⟨List.prefix_rfl, ?_⟩
  unfold requests
  rw [hw]
  exact List.prefix_append_right_inj _ |>.2 (h.map _)

theorem Moves.grows (hm : d.Moves a client jobs i (d', signal)) : d.Grows d' := by
  cases hm with
  | idle => exact .refl _
  | queue | close => exact ⟨List.prefix_rfl, List.prefix_rfl⟩
  | @enter s now hi hh =>
    refine ⟨List.prefix_rfl, ?_⟩
    unfold requests
    rw [hh]
    exact List.prefix_rfl
  | step hw _ => exact grows_of_turn hw (a.step_grows client _ _).inquiries
  | forward hw _ | tell hw _ _ _ => exact grows_of_turn hw List.prefix_rfl
  | leave hw _ _ =>
    refine ⟨?_, (leave_requests hw).symm ▸ List.prefix_rfl⟩
    rw [leave_log]
    exact List.prefix_append _ _

theorem perform_grows (a : Agent) (client : Client σ) (jobs : Fin n → Job) (d : Desk σ n) (act : Act n) :
    d.Grows (d.perform a client jobs act) := by
  cases act with
  | advance i => exact (d.advance_moves i).grows
  | forward i => exact Moves.grows (d.forward_moves i : d.Moves a client jobs i _)
  | receive i | abandon i => exact .refl _

end Desk

theorem State.run_grows (b : State σ n) (acts : List (Act n)) :
    b.desk.Grows (b.run a client jobs acts).desk := by
  induction acts generalizing b with
  | nil => exact .refl _
  | cons act acts ih =>
    have hp := b.desk.perform_grows a client jobs act
    rw [← b.perform_desk] at hp
    exact hp.trans (ih _)

/-! ## The end -/

namespace Orderly

variable {s : Session σ} {now : Nat} {d : Desk σ n}

theorem free_of_gone (h : Orderly a client jobs s now d) (hg : ∀ i, d.phase i = .gone) :
    d.hold = .free (s.left now d.past).1 (s.left now d.past).2 := by
  have hc := h.hold
  cases hh : d.hold with
  | free s' now' =>
    rw [hh] at hc
    rw [← show (s', now') = s.left now d.past from hc]
  | taken i w => exact absurd ((hg i).symm.trans (h.placed_taken hh).inside) (by simp)

/-- In the end every task has been served, in the order of asking. -/
theorem served_of_gone (h : Orderly a client jobs s now d) (hg : ∀ i, d.phase i = .gone) :
    d.asked = d.served ∧ d.served.Perm (List.finRange n) := by
  have hh : d.holder = [] := d.holder_free (h.free_of_gone hg)
  have hq : d.queue = [] := h.placed.free hh
  have hs : d.asked = d.served := by simp [Desk.asked, hh, hq]
  have hn : d.served.Nodup := by
    rw [← hs]
    exact h.placed.once
  have hm : ∀ i, i ∈ d.served := by
    intro i
    have hp := h.placed.phase i
    rwa [hg i] at hp
  refine ⟨hs, (List.perm_ext_iff_of_nodup hn (List.nodup_finRange n)).2 fun i => ?_⟩
  simp [hm i]

/-- The turn of a task that has been served, and those before and behind it. -/
theorem past_split {i : Fin n} (h : Orderly a client jobs s now d) (hi : i ∈ d.served) :
    ∃ before after : List (Ending × Turn σ),
      let left := s.left now before
      let ended := left.1.turn a client left.2 (jobs i).1 (jobs i).2
      d.past = before ++ ended :: after ∧ (i, ended) ∈ d.log := by
  obtain ⟨first, others, hserved⟩ := List.append_of_mem hi
  have hpast := h.past
  rw [hserved, List.map_append, Session.turns_append] at hpast
  refine ⟨s.turns a client now (first.map jobs), _, hpast, ?_⟩
  have hlen : first.length = (s.turns a client now (first.map jobs)).length := by
    rw [Session.turns_length, List.length_map]
  have hlog : d.log = d.served.zip d.past := List.zip_of_prod rfl rfl
  rw [hlog, hpast, hserved, List.zip_append hlen]
  exact List.mem_append_right _ List.mem_cons_self

theorem log_eq (h : Orderly a client jobs s now d) :
    d.log = d.served.zip (s.turns a client now (d.served.map jobs)) :=
  List.zip_of_prod rfl h.past

end Orderly

namespace State.Sound

variable {s : Session σ} {now : Nat} {b : State σ n} {i : Fin n} {e : Ending × Turn σ}

/-- What a task has sent, it has sent. -/
theorem sends_run {sent : List Output} (h : b.Sound a client jobs s now) (hs : b.desk.Sends i sent)
    (acts : List (Act n)) : ∃ more, (b.run a client jobs acts).desk.Sends i (sent ++ more) := by
  have hkeep : ∀ {d : Desk σ n} {sent}, d.Sends i sent → ∃ more, d.Sends i (sent ++ more) := by
    intro d sent hd
    refine ⟨[], ?_⟩
    rwa [List.append_nil]
  induction acts generalizing b sent with
  | nil => exact hkeep hs
  | cons act acts ih =>
    have hact : ∃ now, (b.perform a client jobs act).desk.Sends i (sent ++ now) := by
      rw [b.perform_desk]
      cases act with
      | advance j =>
        by_cases hj : i = j
        · subst hj
          exact ⟨_, hs.moves h.orderly (b.desk.advance_moves i)⟩
        · exact hkeep (hs.frame h.orderly (b.desk.advance_moves j) hj)
      | forward j =>
        by_cases hj : i = j
        · subst hj
          exact ⟨_, hs.moves h.orderly (b.desk.forward_moves i)⟩
        · exact hkeep (hs.frame h.orderly (b.desk.forward_moves j) hj)
      | receive j | abandon j => exact hkeep hs
    obtain ⟨now, hnow⟩ := hact
    obtain ⟨more, hmore⟩ := ih (h.perform act) hnow
    exact ⟨now ++ more, by rwa [← List.append_assoc]⟩

/-- At no moment has the receiver anything but the beginning of what the turn will have handed out. -/
theorem items_start (h : b.Sound a client jobs s now) (acts : List (Act n))
    (he : (i, e) ∈ (b.run a client jobs acts).desk.log) : (b.outbox i).items <+: outputs e := by
  obtain ⟨sent, hs, hk⟩ := h.outbox i
  obtain ⟨more, hmore⟩ := h.sends_run hs acts
  have hall := hmore.of_served (h.run acts).orderly he
  exact hk.start.trans (hall ▸ List.prefix_append _ _)

/-- When the turn is over, nothing is missing. -/
theorem items_eq (h : b.Sound a client jobs s now) (he : (i, e) ∈ b.desk.log)
    (ha : (b.outbox i).abandoned = false) : (b.outbox i).items = outputs e := by
  obtain ⟨sent, hs, hk⟩ := h.outbox i
  rw [hk.all ha]
  exact hs.of_served h.orderly he

end State.Sound

/-- **Turns that run in the background come to the same as turns one after another**, in the
order in which they ask for the agent, whoever acts when. Once all tasks have come to their
end, which they do on every fair schedule unless a turn is stuck at some time, the log, the
requests and what is left for later turns are those of the turns one after another. Every
receiver has got the items of its own turn and no others, at any moment a beginning of them. A
turn, however it ended, matters to those behind it only by the session and the instant it left. -/
theorem serializes (a : Agent) (client : Client σ) (jobs : Fin n → Job) (s : Session σ) (now : Nat) :
    (∀ acts : Nat → Act n, Fair acts → ∃ k,
      ((State.start s now).play a client jobs acts k).Finished ∨
        ((State.start s now).play a client jobs acts k).desk.Stuck) ∧
    ∀ acts : List (Act n), ((State.start s now).run a client jobs acts).Finished →
      let b := (State.start s now).run a client jobs acts
      let order := askers acts
      let serial := s.turns a client now (order.map jobs)
      order.Perm (List.finRange n) ∧
      b.desk.log = order.zip serial ∧
      b.desk.requests = serial.flatMap (·.2.requests) ∧
      b.desk.hold = .free (s.left now serial).1 (s.left now serial).2 ∧
      (∀ i e, (i, e) ∈ order.zip serial →
        (b.outbox i).closed = true ∧ ((b.outbox i).abandoned = false → (b.outbox i).items = outputs e)) ∧
      (∀ earlier, earlier <+: acts →
        let b' := (State.start s now).run a client jobs earlier
        b'.desk.log <+: order.zip serial ∧ b'.desk.requests <+: serial.flatMap (·.2.requests) ∧
        ∀ i e, (i, e) ∈ order.zip serial → (b'.outbox i).items <+: outputs e) ∧
      ∀ before e after, serial = before ++ e :: after →
        after = (Session.after e.2).turns a client e.2.clock.now ((order.drop (before.length + 1)).map jobs) := by
  refine ⟨fun acts hf => (State.Sound.start a client jobs s now).finishes hf, ?_⟩
  intro acts hfinished b order serial
  have hsound : b.Sound a client jobs s now := (State.Sound.start a client jobs s now).run acts
  obtain ⟨hasked, hperm⟩ := hsound.orderly.served_of_gone hfinished
  have hserved : b.desk.served = order := by
    rw [← hasked]
    exact State.run_asked a client jobs s now acts
  have hpast : b.desk.past = serial := by
    rw [hsound.orderly.past, hserved]
  have hlog : b.desk.log = order.zip serial := by
    rw [hsound.orderly.log_eq, hserved]
  have hfree := hsound.orderly.free_of_gone hfinished
  have hrequests : b.desk.requests = serial.flatMap (·.2.requests) := by
    simp [Desk.requests, hfree, hpast]
  refine ⟨hserved ▸ hperm, hlog, hrequests, hpast ▸ hfree, fun i e he => ⟨?_, ?_⟩, ?_, ?_⟩
  · exact (hsound.closed i).2 (hfinished i)
  · exact hsound.items_eq (hlog ▸ he)
  · rintro earlier ⟨more, rfl⟩ b'
    have hb : b = b'.run a client jobs more := State.run_append _ _ _
    have hgrows : b'.desk.Grows b.desk := hb ▸ b'.run_grows more
    have hsound' : b'.Sound a client jobs s now := (State.Sound.start a client jobs s now).run earlier
    refine ⟨hlog ▸ hgrows.log, hrequests ▸ hgrows.requests, fun i e he => ?_⟩
    refine hsound'.items_start more ?_
    rw [← hb, hlog]
    exact he
  · intro before e after h
    rw [Session.turns_behind a client h, List.map_drop]

/-- A turn, and one whose token is cancelled before. -/
def forecasts : Fin 2 → Job
  | 0 => ([.text "Weather?" "user" none], .never)
  | 1 => ([.text "And now?" "user" none], .before)

theorem serializes_forecasts :
    let b := (State.start ⟨.unbounded, .forecast⟩ 0).run Agent.forecaster (Replay.client .usual) forecasts
      (upTo (roundRobin 2) 120)
    b.Finished ∧ b.desk.log = [0, 1].zip (Session.turns ⟨.unbounded, .forecast⟩ Agent.forecaster
      (Replay.client .usual) 0 [forecasts 0, forecasts 1]) := by
  intro b
  have hfinished : b.Finished := by
    unfold State.Finished
    decide +kernel
  have horder : askers (upTo (roundRobin 2) 120) = [0, 1] := by decide +kernel
  obtain ⟨-, hlog, -⟩ := (serializes Agent.forecaster (Replay.client .usual) forecasts
    ⟨.unbounded, .forecast⟩ 0).2 _ hfinished
  rw [horder] at hlog
  exact ⟨hfinished, hlog⟩

end Background
end ToolAgent
