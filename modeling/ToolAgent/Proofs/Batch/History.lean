/-
The history of a batch, look by look.

`Registry.looks` lists every look that the rounds take at a call, in order. It is the
history of the very run: its looks make up the audit log (`looks_audits`), and played from
the start they lead to where the rounds end (`looks_play`). A look lets a stretch of the
tool's body run, or none (`Registry.stretch?`, `poll_stretch`).

`Batch.Plays` is the run as small steps: looks, and the clock going on in between. What
every look keeps, and waiting too, a batch keeps, in whatever order its calls are looked at.
-/
import ToolAgent.Proofs.Batch.Progress

namespace ToolAgent

/-- A look at a call in the course of a batch: where the call stands, how far it has come by
then, and the clock. -/
structure Look where
  place : Nat
  call : ToolCall
  progress : Progress
  clock : Clock

namespace Look

variable (r : Registry) (l : Look)

/-- How far the call has come after the look. -/
def after : Progress := (r.poll l.call l.clock l.progress).1

def clockAfter : Clock := (r.poll l.call l.clock l.progress).2

/-- The record of the call, if the look settles it. -/
def audits : List Audit := Batch.newAudit l.call l.progress (l.after r)

end Look

/-! ## What a look lets run -/

namespace Registry

/-- The part of its tool's body that a look at a call starts or resumes, if it does. -/
def stretch? (r : Registry) (c : ToolCall) (clock : Clock) : Progress → Option Body
  | .fresh => match r.admit c with
    | .error _ => none
    | .ok body => if clock.isCancelled then none else some body
  | .asleep wake rest => if wake ≤ clock.now ∧ ¬ clock.isCancelled then some rest else none
  | .givingWay rest => if clock.isCancelled then none else some rest
  | .awaiting _ | .settled _ => none

/-- How a call ends that is looked at under a cancelled token. -/
def cutShort (r : Registry) (c : ToolCall) : Progress → Verdict
  | .fresh => match r.admit c with
    | .error e => .error e
    | .ok _ => .error (.cutOff c.id)
  | .asleep _ _ | .givingWay _ | .awaiting _ => .error (.cutOff c.id)
  | .settled v => v

variable {r : Registry} {c : ToolCall} {clock : Clock} {p : Progress}

/-- What a look starts or resumes goes on to its next pause. -/
theorem poll_stretch {b : Body} (h : r.stretch? c clock p = some b) :
    r.poll c clock p = c.advance clock b := by
  cases p with
  | fresh =>
    simp only [stretch?] at h
    cases ha : r.admit c with
    | error e => simp [ha] at h
    | ok body =>
      simp only [ha] at h
      split at h
      · cases h
      next hc =>
        cases h
        simp only [poll, ha, ToolCall.resume, if_neg hc]
  | asleep wake rest =>
    simp only [stretch?] at h
    split at h
    next hw =>
      cases h
      simp only [poll, if_pos (Or.inl hw.1), ToolCall.resume, if_neg hw.2]
    · cases h
  | givingWay rest =>
    simp only [stretch?] at h
    split at h
    · cases h
    next hc =>
      cases h
      simp only [poll, ToolCall.resume, if_neg hc]
  | awaiting | settled => cases h

/-- Under a cancelled token nothing is started or resumed. -/
theorem stretch?_cancelled (hc : clock.isCancelled = true) : r.stretch? c clock p = none := by
  cases p with
  | fresh =>
    simp only [stretch?, if_pos hc]
    split <;> rfl
  | asleep wake rest => exact if_neg fun h => h.2 hc
  | givingWay rest => exact if_pos hc
  | awaiting | settled => rfl

/-- A look under a cancelled token settles the call at once, whatever its tool has left to do. -/
theorem poll_cancelled (hc : clock.isCancelled = true) :
    r.poll c clock p = (.settled (r.cutShort c p), clock) := by
  cases p with
  | fresh =>
    cases ha : r.admit c <;>
      simp only [poll, cutShort, ha, ToolCall.resume, if_pos hc, ToolCall.cutOff]
  | asleep wake rest =>
    simp only [poll, cutShort, if_pos (Or.inr hc), ToolCall.resume, if_pos hc, ToolCall.cutOff]
  | givingWay rest | awaiting rest =>
    simp only [poll, cutShort, ToolCall.resume, if_pos hc, ToolCall.cutOff]
  | settled v => rfl

/-- A look that lets nothing run leaves the call where it is, or settles it at once: the call is cut
off or was never admitted. -/
theorem poll_idle (h : r.stretch? c clock p = none) :
    r.poll c clock p = (p, clock) ∨
      (r.poll c clock p = (.settled (r.cutShort c p), clock) ∧
        (clock.isCancelled = true ∨ ∃ e, p = .fresh ∧ r.admit c = .error e)) := by
  by_cases hc : clock.isCancelled = true
  · exact .inr ⟨poll_cancelled hc, .inl hc⟩
  cases p with
  | fresh =>
    cases ha : r.admit c with
    | error e => exact .inr ⟨by simp only [poll, cutShort, ha], .inr ⟨e, rfl, rfl⟩⟩
    | ok body => simp [stretch?, ha, hc] at h
  | asleep wake rest =>
    have hw : ¬ (wake ≤ clock.now ∨ clock.isCancelled = true) := by simpa [stretch?, hc] using h
    exact .inl (by simp only [poll, if_neg hw])
  | givingWay rest => simp [stretch?, hc] at h
  | awaiting rest => exact .inl (by simp only [poll, if_neg hc])
  | settled v => exact .inl rfl

end Registry

namespace Batch

variable {r : Registry}

/-! ## Runs -/

/-- A moment once a look is over. -/
def Moment.look (r : Registry) (m : Moment) (l : Look) : Moment :=
  ⟨m.calls.set l.place (l.call, l.after r), l.clockAfter r⟩

/-- From one moment to another by looks, with waiting in between. -/
inductive Plays (r : Registry) : Moment → List Look → Moment → Prop
  | refl {m} : Plays r m [] m
  | look {m i c p looks m'} : m.calls[i]? = some (c, p) →
      Plays r (m.look r ⟨i, c, p, m.clock⟩) looks m' → Plays r m (⟨i, c, p, m.clock⟩ :: looks) m'
  | wait {m clock looks m'} : nextClock? m.clock m.calls = some clock →
      Plays r ⟨m.calls, clock⟩ looks m' → Plays r m looks m'

theorem Plays.trans {m₁ m₂ m₃ : Moment} {looks looks' : List Look} (h : Plays r m₁ looks m₂)
    (h' : Plays r m₂ looks' m₃) : Plays r m₁ (looks ++ looks') m₃ := by
  induction h with
  | refl => exact h'
  | look hi _ ih => exact .look hi (ih h')
  | wait hn _ ih => exact .wait hn (ih h')

/-- A run may be cut between any two looks. -/
theorem Plays.split {m m' : Moment} {all : List Look} (h : Plays r m all m') :
    ∀ {looks looks'}, all = looks ++ looks' → ∃ m₁, Plays r m looks m₁ ∧ Plays r m₁ looks' m' := by
  induction h with
  | refl =>
    intro looks looks' he
    obtain ⟨rfl, rfl⟩ := List.append_eq_nil_iff.1 he.symm
    exact ⟨_, .refl, .refl⟩
  | @look m i c p rest m' hi hp ih =>
    intro looks looks' he
    cases looks with
    | nil => exact ⟨m, .refl, by rw [← List.nil_append looks', ← he]; exact .look hi hp⟩
    | cons l looks =>
      obtain ⟨rfl, rfl⟩ := List.cons.inj he
      obtain ⟨m₁, h₁, h₂⟩ := ih rfl
      exact ⟨m₁, .look hi h₁, h₂⟩
  | wait hn _ ih =>
    intro looks looks' he
    obtain ⟨m₁, h₁, h₂⟩ := ih he
    exact ⟨m₁, .wait hn h₁, h₂⟩

/-- The first look finds its call as it says, once the clock has come there. -/
theorem Plays.uncons {m m' : Moment} {all : List Look} (h : Plays r m all m') :
    ∀ {l looks}, all = l :: looks → ∃ m₁ : Moment, m₁.clock = l.clock ∧
      m₁.calls[l.place]? = some (l.call, l.progress) ∧
      Plays r m [l] (m₁.look r l) ∧ Plays r (m₁.look r l) looks m' := by
  induction h with
  | refl => exact fun he => nomatch he
  | @look m i c p rest m' hi hp _ =>
    intro l looks he
    obtain ⟨rfl, rfl⟩ := List.cons.inj he
    exact ⟨m, rfl, hi, .look hi .refl, hp⟩
  | wait hn _ ih =>
    intro l looks he
    obtain ⟨m₁, hc, hi, h₁, hrest⟩ := ih he
    exact ⟨m₁, hc, hi, .wait hn h₁, hrest⟩

/-- What holds of every call at the start, and of a call after a look if it did before, holds
throughout: of the calls at the end, and of each when it is looked at. -/
theorem Plays.all {P : ToolCall → Progress → Prop} {m m' : Moment} {looks : List Look}
    (hstep : ∀ c clock p, P c p → P c (r.poll c clock p).1) (h : Plays r m looks m')
    (hm : ∀ x ∈ m.calls, P x.1 x.2) :
    (∀ l ∈ looks, P l.call l.progress) ∧ ∀ x ∈ m'.calls, P x.1 x.2 := by
  induction h with
  | refl => exact ⟨by simp, hm⟩
  | @look m i c p _ _ hi _ ih =>
    have hp : P c p := hm _ (List.mem_of_getElem? hi)
    obtain ⟨hl, hx⟩ := ih fun x hx => by
      rcases List.mem_or_eq_of_mem_set hx with hx | rfl
      · exact hm x hx
      · exact hstep c m.clock p hp
    exact ⟨by simpa using ⟨hp, hl⟩, hx⟩
  | wait _ _ ih => exact ih hm

/-- The token is not given back. -/
theorem Plays.cancelled {m m' : Moment} {looks : List Look} (hp : Plays r m looks m') (hc : m.clock.isCancelled = true) :
    (∀ l ∈ looks, l.clock.isCancelled = true) ∧ m'.clock.isCancelled = true := by
  induction hp with
  | refl => exact ⟨by simp, hc⟩
  | look _ _ ih =>
    obtain ⟨hl, hm⟩ := ih (by simpa [Moment.look, Look.clockAfter, Registry.poll_cancelled hc] using hc)
    exact ⟨by simpa using ⟨hc, hl⟩, hm⟩
  | wait hn _ ih =>
    rcases nextClock?_eq_some hn with ⟨-, rfl⟩ | ⟨now, hw, rfl⟩
    · exact ih hc
    · rw [hw.running] at hc
      cases hc

/-! ## The looks of a batch -/

/-- The looks of one round. -/
def roundLooks (r : Registry) (clock : Clock) (calls : Calls) : Line → List Look
  | [] => []
  | i :: line =>
    match calls[i]? with
    | none => roundLooks r clock calls line
    | some (c, p) =>
      let (q, clock') := r.poll c clock p
      ⟨i, c, p, clock⟩ :: roundLooks r clock' (calls.set i (c, q)) line

/-- The looks of so many rounds. -/
def looks (r : Registry) : Nat → Clock → Calls → Line → Line → List Look
  | 0, _, _, _, _ => []
  | bound + 1, clock, calls, rested, line =>
    let (calls', clock', _) := round r clock calls line
    let now := roundLooks r clock calls line
    if isSettled calls' then now
    else
      match nextClock? clock' calls' with
      | none => now
      | some clock' =>
        let rested := rested.filter (!line.contains ·) ++ line
        now ++ looks r bound clock' calls' rested (nextLine clock' rested calls')

theorem round_plays (r : Registry) : ∀ (line : Line) (clock : Clock) (calls : Calls),
    Plays r ⟨calls, clock⟩ (roundLooks r clock calls line)
      ⟨(round r clock calls line).1, (round r clock calls line).2.1⟩
  | [], _, _ => .refl
  | i :: line, clock, calls => by
    cases hi : calls[i]? with
    | none =>
      simp only [round, roundLooks, hi]
      exact round_plays r line clock calls
    | some x =>
      obtain ⟨c, p⟩ := x
      simp only [round, roundLooks, hi]
      exact .look hi (round_plays r line _ _)

theorem rounds_play (r : Registry) : ∀ (bound : Nat) (clock : Clock) (calls : Calls) (rested line : Line),
    Plays r ⟨calls, clock⟩ (looks r bound clock calls rested line)
      ⟨(rounds r bound clock calls rested line).1, (rounds r bound clock calls rested line).2.1⟩
  | 0, _, _, _, _ => .refl
  | bound + 1, clock, calls, rested, line => by
    have hr := round_plays r line clock calls
    simp only [rounds, looks]
    split
    · exact hr
    · cases hn : nextClock? (round r clock calls line).2.1 (round r clock calls line).1 with
      | none => exact hr
      | some clock' => exact hr.trans (.wait hn (rounds_play r bound _ _ _ _))

theorem round_audits (r : Registry) : ∀ (line : Line) (clock : Clock) (calls : Calls),
    (round r clock calls line).2.2 = (roundLooks r clock calls line).flatMap (Look.audits r)
  | [], _, _ => rfl
  | i :: line, clock, calls => by
    cases hi : calls[i]? with
    | none =>
      simp only [round, roundLooks, hi]
      exact round_audits r line clock calls
    | some x =>
      obtain ⟨c, p⟩ := x
      simp only [round, roundLooks, hi, List.flatMap_cons, round_audits r line]
      rfl

theorem rounds_audits (r : Registry) : ∀ (bound : Nat) (clock : Clock) (calls : Calls) (rested line : Line),
    (rounds r bound clock calls rested line).2.2 =
      (looks r bound clock calls rested line).flatMap (Look.audits r)
  | 0, _, _, _, _ => rfl
  | bound + 1, clock, calls, rested, line => by
    have hr := round_audits r line clock calls
    simp only [rounds, looks]
    split
    · exact hr
    · cases nextClock? (round r clock calls line).2.1 (round r clock calls line).1 with
      | none => exact hr
      | some clock' => simp only [List.flatMap_append, hr, rounds_audits r bound]

end Batch

namespace Registry

/-- All looks at calls of a batch, in order. -/
def looks (r : Registry) (clock : Clock) (calls : List ToolCall) : List Look :=
  let all := List.range calls.length
  Batch.looks r (Batch.bound r calls) clock (calls.map (·, .fresh)) all all

theorem looks_play (r : Registry) (clock : Clock) (calls : List ToolCall) :
    Batch.Plays r (.start clock calls) (r.looks clock calls) (r.ended clock calls) :=
  Batch.rounds_play r _ clock _ _ _

/-- The audit log names the calls as looks settle them. -/
theorem looks_audits (r : Registry) (clock : Clock) (calls : List ToolCall) :
    (r.execute clock calls).audits = (r.looks clock calls).flatMap (Look.audits r) :=
  Batch.rounds_audits ..

end Registry
end ToolAgent
