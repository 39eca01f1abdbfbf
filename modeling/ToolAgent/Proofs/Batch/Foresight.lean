/-
What is to come of the calls of a batch.

`Registry.foresee` says how a call ends that has come so far, when it has the clock to itself.
Under a cancelled token, and as long as no tool cancels it, neither a look at any call nor
waiting changes that for any call: all that calls share is the clock, which never goes past an
instant at which one of them is due. So what is foreseen is what a batch ends with, whatever
the order of its looks (`Batch.Plays.foreseen`).
-/
import ToolAgent.Batch.Alone
import ToolAgent.Proofs.Batch.History

namespace ToolAgent

/-! ## What bodies do -/

namespace Body

/-- The body, or what is left of it at some point, passes a test. -/
def any (test : Body → Bool) : Body → Bool
  | .finish o => test (.finish o)
  | .sleep ms rest => test (.sleep ms rest) || rest.any test
  | .giveWay rest => test (.giveWay rest) || rest.any test
  | .awaitCancel rest => test (.awaitCancel rest) || rest.any test
  | .cancel rest => test (.cancel rest) || rest.any test

def isCancel : Body → Bool
  | .cancel _ => true
  | _ => false

def isAwait : Body → Bool
  | .awaitCancel _ => true
  | _ => false

/-- The body cancels the token at some point. -/
def cancels (b : Body) : Bool := b.any isCancel

/-- The body waits for a cancellation at some point. -/
def awaits (b : Body) : Bool := b.any isAwait

end Body

namespace Registry

/-- What is left of a call passes a test at some point. -/
def anyLeft (r : Registry) (test : Body → Bool) (c : ToolCall) : Progress → Bool
  | .fresh => match r.admit c with
    | .error _ => false
    | .ok body => body.any test
  | .asleep _ rest | .givingWay rest => rest.any test
  | .awaiting rest => (Body.awaitCancel rest).any test
  | .settled _ => false

variable {r : Registry} {test : Body → Bool} {c : ToolCall} {clock : Clock} {p : Progress}

theorem advance_anyLeft {b : Body} (h : b.any test = false) :
    ∀ clock, r.anyLeft test c (c.advance clock b).1 = false := by
  induction b with
  | finish o => exact fun _ => rfl
  | giveWay rest => exact fun _ => (Bool.or_eq_false_iff.1 h).2
  | sleep ms rest ih =>
    intro clock
    have hr := (Bool.or_eq_false_iff.1 h).2
    simp only [ToolCall.advance]
    split
    · exact ih hr clock
    · exact hr
  | awaitCancel rest ih =>
    intro clock
    simp only [ToolCall.advance]
    split
    · exact ih (Bool.or_eq_false_iff.1 h).2 clock
    · exact h
  | cancel rest ih => exact fun clock => ih (Bool.or_eq_false_iff.1 h).2 clock.cancel

theorem stretch?_any {b : Body} (hb : r.stretch? c clock p = some b) (h : r.anyLeft test c p = false) :
    b.any test = false := by
  cases p with
  | fresh =>
    simp only [stretch?] at hb
    simp only [anyLeft] at h
    split at hb
    · cases hb
    next body ha =>
      rw [ha] at h
      split at hb
      · cases hb
      · cases hb
        exact h
  | asleep wake rest | givingWay rest =>
    simp only [stretch?] at hb
    split at hb <;> cases hb
    exact h
  | awaiting | settled => cases hb

theorem poll_anyLeft (h : r.anyLeft test c p = false) : r.anyLeft test c (r.poll c clock p).1 = false := by
  cases hs : r.stretch? c clock p with
  | some b =>
    rw [poll_stretch hs]
    exact advance_anyLeft (stretch?_any hs h) clock
  | none =>
    rcases poll_idle hs with hp | ⟨hp, -⟩
    · rw [hp]
      exact h
    · rw [hp]
      rfl

end Registry

/-! ## What is to come of a call -/

namespace Registry

/-- How a call ends that has come so far, when it has the clock to itself. -/
def foresee (r : Registry) (c : ToolCall) (clock : Clock) : Progress → Verdict
  | .fresh => match r.admit c with
    | .error e => .error e
    | .ok body => if clock.isCancelled then .error (.cutOff c.id) else c.runAlone clock body
  | .asleep wake rest =>
    let clock := { clock with now := max clock.now wake }
    if clock.isCancelled then .error (.cutOff c.id) else c.runAlone clock rest
  | .givingWay rest => if clock.isCancelled then .error (.cutOff c.id) else c.runAlone clock rest
  | .awaiting _ => .error (.cutOff c.id)
  | .settled v => v

end Registry

theorem Clock.isCancelled_later {clock : Clock} {now : Nat} (h : clock.isCancelled = true)
    (hn : clock.now ≤ now) : { clock with now := now }.isCancelled = true := by
  simp only [isCancelled, Bool.or_eq_true, Option.any_eq_true, decide_eq_true_eq] at h ⊢
  rcases h with h | ⟨a, ha, hle⟩
  · exact .inl h
  · exact .inr ⟨a, ha, Nat.le_trans hle hn⟩

namespace Registry

variable {r : Registry} {c : ToolCall} {clock : Clock} {p : Progress}

/-- Under a cancelled token the end of a call is settled by how far it has come. -/
theorem foresee_cancelled (hc : clock.isCancelled = true) : r.foresee c clock p = r.cutShort c p := by
  cases p with
  | fresh => cases ha : r.admit c <;> simp only [foresee, cutShort, ha, if_pos hc]
  | asleep wake rest =>
    have hl : { clock with now := max clock.now wake }.isCancelled = true :=
      Clock.isCancelled_later hc (Nat.le_max_left _ _)
    simp only [foresee, cutShort, if_pos hl]
  | givingWay rest => simp only [foresee, cutShort, if_pos hc]
  | awaiting | settled => rfl

/-- A stretch that does not cancel the token leaves the clock alone, and what is to come. -/
theorem advance_foresee {b : Body} (hb : b.cancels = false) (hc : clock.isCancelled = false) :
    (c.advance clock b).2 = clock ∧ r.foresee c clock (c.advance clock b).1 = c.runAlone clock b := by
  induction b with
  | finish o => exact ⟨rfl, rfl⟩
  | giveWay rest => exact ⟨rfl, by simp only [ToolCall.advance, foresee, ToolCall.runAlone]⟩
  | sleep ms rest ih =>
    have hr : rest.cancels = false := by simpa [Body.cancels, Body.any, Body.isCancel] using hb
    simp only [ToolCall.advance, ToolCall.runAlone]
    split
    · exact ih hr
    · refine ⟨rfl, ?_⟩
      simp only [foresee, Nat.max_eq_right (Nat.le_add_right _ _)]
      rfl
  | awaitCancel rest _ => simp [ToolCall.advance, ToolCall.runAlone, foresee, hc]
  | cancel rest _ => cases hb

/-- A look that lets a stretch run finds the call where foreseeing it goes on. -/
theorem stretch?_foresee {b : Body} (hb : r.stretch? c clock p = some b) :
    clock.isCancelled = false ∧ r.foresee c clock p = c.runAlone clock b := by
  have hc : clock.isCancelled = false := by
    cases h : clock.isCancelled with
    | false => rfl
    | true => rw [stretch?_cancelled h] at hb; cases hb
  refine ⟨hc, ?_⟩
  cases p with
  | fresh =>
    cases ha : r.admit c with
    | error e => simp [stretch?, ha] at hb
    | ok body =>
      simp only [stretch?, ha, hc] at hb
      cases hb
      simp only [foresee, ha, hc]
      rfl
  | asleep wake rest =>
    simp only [stretch?] at hb
    split at hb
    next hw =>
      cases hb
      simp only [foresee, Nat.max_eq_left hw.1, hc]
      rfl
    · cases hb
  | givingWay rest =>
    simp only [stretch?, hc] at hb
    cases hb
    simp only [foresee, hc]
    rfl
  | awaiting | settled => cases hb

/-- A look at a call leaves the clock alone, and what is to come of the call, under a cancelled
token and if the call does not cancel it. -/
theorem poll_foresee (h : clock.isCancelled = true ∨ r.anyLeft Body.isCancel c p = false) :
    (r.poll c clock p).2 = clock ∧ r.foresee c clock (r.poll c clock p).1 = r.foresee c clock p := by
  cases hs : r.stretch? c clock p with
  | some b =>
    obtain ⟨hc, hf⟩ := stretch?_foresee hs
    have hb : b.cancels = false := stretch?_any hs (h.resolve_left (by simp [hc]))
    rw [poll_stretch hs, hf]
    exact advance_foresee hb hc
  | none =>
    rcases poll_idle hs with hp | ⟨hp, hc | ⟨e, rfl, he⟩⟩
    · rw [hp]
      exact ⟨rfl, rfl⟩
    · rw [hp]
      exact ⟨rfl, (foresee_cancelled hc).symm⟩
    · rw [hp]
      simp only [foresee, cutShort, he, and_self]

/-- Nor does waiting change what is to come of a call: the clock stops at the first instant at
which some call is due. -/
theorem wait_foresee {clock' : Clock} {calls : Batch.Calls} (hn : Batch.nextClock? clock calls = some clock')
    (hx : (c, p) ∈ calls) : r.foresee c clock' p = r.foresee c clock p := by
  rcases Batch.nextClock?_eq_some hn with ⟨-, rfl⟩ | ⟨now, hw, rfl⟩
  · rfl
  · have hdue := hw.due _ hx
    have hle := hw.le
    -- What is due now lets no time pass.
    have hnow : Batch.dueAt clock.now p = some clock.now → { clock with now := now } = clock := by
      intro hd
      obtain rfl : now = clock.now := Nat.le_antisymm (hdue _ hd) hle
      rfl
    cases p with
    | fresh | givingWay => rw [hnow rfl]
    | asleep wake rest =>
      have hm : max now wake = max clock.now wake := by
        have := hdue _ rfl
        omega
      simp only [foresee, hm]
    | awaiting | settled => rfl

end Registry

/-! ## Whole batches -/

namespace Batch

variable {r : Registry} {test : Body → Bool} {m m' : Moment} {looks : List Look}

/-- Nothing that is left of the calls passes a test. -/
def Never (r : Registry) (test : Body → Bool) (calls : Calls) : Prop :=
  ∀ x ∈ calls, r.anyLeft test x.1 x.2 = false

theorem Never.start {clock : Clock} {calls : List ToolCall}
    (h : ∀ c ∈ calls, ∀ body, r.admit c = .ok body → body.any test = false) :
    Never r test (Moment.start clock calls).calls := by
  intro x hx
  obtain ⟨c, hc, rfl⟩ := List.mem_map.1 hx
  simp only [Registry.anyLeft]
  split
  · rfl
  next body ha => exact h c hc body ha

theorem Never.plays (hp : Plays r m looks m') (h : Never r test m.calls) : Never r test m'.calls :=
  (hp.all (P := fun c p => r.anyLeft test c p = false) (fun _ _ _ => Registry.poll_anyLeft) h).2

/-- The results that the calls are to have, each with the clock to itself. -/
def foreseen (r : Registry) (m : Moment) : List ToolResult :=
  m.calls.map fun x => x.1.resultOf (r.foresee x.1 m.clock x.2)

/-- Nobody changes what is foreseen: the token is cancelled already, or none of the calls
cancels it. -/
def Foreseeable (r : Registry) (m : Moment) : Prop :=
  m.clock.isCancelled = true ∨ Never r Body.isCancel m.calls

theorem Foreseeable.look {i : Nat} {c : ToolCall} {p : Progress} (h : Foreseeable r m)
    (hi : m.calls[i]? = some (c, p)) :
    Foreseeable r (m.look r ⟨i, c, p, m.clock⟩) ∧
      foreseen r (m.look r ⟨i, c, p, m.clock⟩) = foreseen r m := by
  have hquiet : m.clock.isCancelled = true ∨ r.anyLeft Body.isCancel c p = false :=
    h.imp_right fun h => h _ (List.mem_of_getElem? hi)
  obtain ⟨hc, hf⟩ := Registry.poll_foresee hquiet
  refine ⟨h.imp (fun h => ?_) (Never.plays (.look hi .refl)), ?_⟩
  · simpa only [Moment.look, Look.clockAfter, hc] using h
  · have hset : (foreseen r m)[i]? = some (c.resultOf (r.foresee c m.clock p)) := by simp [foreseen, hi]
    obtain ⟨hlt, he⟩ := List.getElem?_eq_some_iff.1 hset
    simp only [foreseen, Moment.look, Look.after, Look.clockAfter, hc, List.map_set, hf]
    rw [← he]
    exact List.set_getElem_self hlt

theorem Foreseeable.wait {clock : Clock} (h : Foreseeable r m) (hn : nextClock? m.clock m.calls = some clock) :
    Foreseeable r ⟨m.calls, clock⟩ ∧ foreseen r ⟨m.calls, clock⟩ = foreseen r m := by
  refine ⟨h.imp_left fun h => ?_, List.map_congr_left fun x hx => by rw [Registry.wait_foresee hn hx]⟩
  rcases nextClock?_eq_some hn with ⟨-, rfl⟩ | ⟨now, hw, rfl⟩
  · exact h
  · rw [hw.running] at h
    cases h

theorem Plays.foreseen (hp : Plays r m looks m') (h : Foreseeable r m) :
    Batch.foreseen r m' = Batch.foreseen r m := by
  induction hp with
  | refl => rfl
  | look hi _ ih =>
    obtain ⟨hs, hf⟩ := h.look hi
    rw [ih hs, hf]
  | wait hn _ ih =>
    obtain ⟨hs, hf⟩ := h.wait hn
    rw [ih hs, hf]

end Batch

namespace Registry

variable {r : Registry} {clock : Clock} {calls : List ToolCall}

theorem ended_foreseen (r : Registry) (clock : Clock) (calls : List ToolCall) :
    (r.execute clock calls).results = Batch.foreseen r (r.ended clock calls) := by
  rw [execute_results]
  refine List.map_congr_left fun x hx => ?_
  rcases (r.ended_over clock calls).settled_or_awaiting hx with ⟨v, hp⟩ | ⟨⟨rest, hp⟩, -⟩ <;>
    rw [hp] <;> rfl

theorem start_foreseen (r : Registry) (clock : Clock) (calls : List ToolCall) :
    Batch.foreseen r (.start clock calls) = calls.map (r.executeAlone clock) := by
  simp only [Batch.foreseen, Batch.Moment.start, List.map_map]
  rfl

end Registry
end ToolAgent
