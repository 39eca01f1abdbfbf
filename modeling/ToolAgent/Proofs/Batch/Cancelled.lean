/-
What is left of a batch once its token is cancelled, by whoever it was: the outside, before the
batch or in the middle of it, or one of its tools.

From then on looks find the token cancelled, whatever the order in which they are taken. Each
settles its call at once and lets nothing of a body run, so the end of every call can be read
off the moment at which it happened (`Registry.lastWord`, `execute_cancelled`).
-/
import ToolAgent.Proofs.Batch.Foresight

namespace ToolAgent

/-- The part of its tool's body that a look starts or resumes, if it does. -/
def Look.stretch? (r : Registry) (l : Look) : Option Body := r.stretch? l.call l.clock l.progress

namespace Registry

/-- Why a call that was not settled in time gets no value: it was never admitted, or it is cut
off. -/
def refusal (r : Registry) (c : ToolCall) : CallError :=
  match r.admit c with
  | .error e => e
  | .ok _ => .cutOff c.id

/-- How a call ends under a cancelled token. -/
def lastWord (r : Registry) (c : ToolCall) (p : Progress) : Verdict :=
  p.verdict?.getD (.error (r.refusal c))

/-- A call that is on its way was admitted. -/
def Entered (r : Registry) (c : ToolCall) (p : Progress) : Prop :=
  p = .fresh ∨ p.verdict?.isSome = true ∨ ∃ body, r.admit c = .ok body

variable {r : Registry} {c : ToolCall} {clock : Clock} {p : Progress}

theorem Entered.stretch? {b : Body} (h : r.Entered c p) (hb : r.stretch? c clock p = some b) :
    ∃ body, r.admit c = .ok body := by
  rcases h with rfl | hv | ha
  · cases ha : r.admit c with
    | error e => simp [Registry.stretch?, ha] at hb
    | ok body => exact ⟨body, rfl⟩
  · cases p with
    | settled v => cases hb
    | _ => cases hv
  · exact ha

theorem Entered.poll (h : r.Entered c p) : r.Entered c (r.poll c clock p).1 := by
  cases hs : r.stretch? c clock p with
  | some b => exact .inr (.inr (h.stretch? hs))
  | none =>
    rcases poll_idle hs with hp | ⟨hp, -⟩
    · rw [hp]
      exact h
    · rw [hp]
      exact .inr (.inl rfl)

theorem Entered.cutShort (h : r.Entered c p) : r.cutShort c p = r.lastWord c p := by
  cases p with
  | fresh =>
    cases ha : r.admit c <;> simp [Registry.cutShort, lastWord, refusal, ha, Progress.verdict?]
  | settled v => rfl
  | asleep | givingWay | awaiting =>
    obtain ⟨body, ha⟩ : ∃ body, r.admit c = .ok body := by
      rcases h with h | h | h
      · cases h
      · cases h
      · exact h
    simp [Registry.cutShort, lastWord, refusal, ha, Progress.verdict?]

end Registry

/-! ## Calls that have begun -/

theorem ToolCall.advance_begun (c : ToolCall) (b : Body) : ∀ clock, (c.advance clock b).1 ≠ .fresh := by
  induction b with
  | finish o => simp [advance]
  | giveWay rest => simp [advance]
  | sleep ms rest ih =>
    intro clock
    simp only [advance]
    split
    · exact ih clock
    · simp
  | awaitCancel rest ih =>
    intro clock
    simp only [advance]
    split
    · exact ih clock
    · simp
  | cancel rest ih => exact fun clock => ih clock.cancel

theorem ToolCall.resume_begun (c : ToolCall) (clock : Clock) (b : Body) : (c.resume clock b).1 ≠ .fresh := by
  unfold resume
  split
  · simp [cutOff]
  · exact c.advance_begun b clock

/-- No call is fresh once it has been looked at. -/
theorem Registry.poll_begun (r : Registry) (c : ToolCall) (clock : Clock) (p : Progress) :
    (r.poll c clock p).1 ≠ .fresh := by
  cases p with
  | fresh =>
    simp only [poll]
    split
    · simp
    · exact c.resume_begun clock _
  | asleep wake rest =>
    simp only [poll]
    split
    · exact c.resume_begun clock rest
    · simp
  | givingWay rest => exact c.resume_begun clock rest
  | awaiting rest =>
    simp only [poll]
    split <;> simp [ToolCall.cutOff]
  | settled v => simp [poll]

namespace Batch

variable {r : Registry}

/-- A round begins the calls that it looks at. -/
theorem round_begun : ∀ {line : Line} {clock : Clock} {calls : Calls} {i : Nat} {c : ToolCall},
    (round r clock calls line).1[i]? = some (c, .fresh) → i ∉ line ∧ calls[i]? = some (c, .fresh)
  | [], _, _, _, _, h => ⟨by simp, h⟩
  | j :: line, clock, calls, i, c, h => by
    rw [round] at h
    split at h
    next hj =>
      obtain ⟨hm, hi⟩ := round_begun h
      refine ⟨?_, hi⟩
      rintro (_ | ⟨_, hm'⟩)
      · rw [hi] at hj
        cases hj
      · exact hm hm'
    next c' p hj =>
      obtain ⟨hm, hi⟩ := round_begun h
      by_cases hij : j = i
      · subst hij
        have hq : (c', (r.poll c' clock p).1) = (c, .fresh) := by
          obtain ⟨hlt, he⟩ := List.getElem?_eq_some_iff.1 hi
          simpa using he
        exact absurd (congrArg Prod.snd hq) (r.poll_begun c' clock p)
      · rw [List.getElem?_set_ne hij] at hi
        refine ⟨?_, hi⟩
        rintro (_ | ⟨_, hm'⟩)
        · exact hij rfl
        · exact hm hm'

/-- The looks of a round are taken along its line. -/
theorem roundLooks_places (r : Registry) : ∀ (line : Line) (clock : Clock) (calls : Calls),
    ((roundLooks r clock calls line).map (·.place)).Sublist line
  | [], _, _ => .slnil
  | i :: line, clock, calls => by
    rw [roundLooks]
    split
    · exact .cons _ (roundLooks_places r line clock calls)
    · exact .cons_cons _ (roundLooks_places r line _ _)

/-- The first round, and what comes after it. -/
theorem looks_succ (r : Registry) (bound : Nat) (clock : Clock) (calls : Calls) (rested line : Line) :
    ∃ later m m', looks r (bound + 1) clock calls rested line = roundLooks r clock calls line ++ later ∧
      m.calls = (round r clock calls line).1 ∧ Plays r m later m' := by
  simp only [looks]
  split
  · exact ⟨[], _, _, by simp, rfl, .refl (m := ⟨_, clock⟩)⟩
  · split
    · exact ⟨[], _, _, by simp, rfl, .refl (m := ⟨_, clock⟩)⟩
    next clock' _ => exact ⟨_, _, _, rfl, rfl, rounds_play r bound clock' _ _ _⟩

/-- In the first round all calls are begun, in the order of the requests. -/
theorem looks_begin (r : Registry) (clock : Clock) (calls : List ToolCall) :
    (r.looks clock calls).Pairwise fun l l' => l'.progress = .fresh → l.place < l'.place := by
  obtain ⟨later, m, m', he, hm, hp⟩ := looks_succ r (load r (calls.map (·, .fresh))) clock
    (calls.map (·, .fresh)) (List.range calls.length) (List.range calls.length)
  have hbegun : ∀ x ∈ m.calls, x.2 ≠ .fresh := by
    rintro ⟨c, p⟩ hx rfl
    obtain ⟨i, hi⟩ := List.mem_iff_getElem?.1 hx
    obtain ⟨hn, hc⟩ := round_begun (hm ▸ hi)
    exact hn (by simpa using (List.getElem?_eq_some_iff.1 hc).1)
  have hlater := (hp.all (P := fun _ p => p ≠ .fresh) (fun c clock p _ => r.poll_begun c clock p) hbegun).1
  have hplaces := roundLooks_places r (List.range calls.length) clock (calls.map (·, .fresh))
  have hfirst := List.pairwise_map.1 (List.pairwise_lt_range.sublist hplaces)
  rw [Registry.looks, bound_eq, he]
  refine List.pairwise_append.2 ⟨hfirst.imp fun {l l'} h (_ : l'.progress = .fresh) => h, ?_, ?_⟩
  · exact List.pairwise_iff_getElem.2 fun i j _ hj _ hf => absurd hf (hlater _ (List.getElem_mem hj))
  · exact fun l _ l' hl' hf => absurd hf (hlater l' hl')

/-! ## Under a cancelled token -/

variable {m m' : Moment} {looks : List Look}

/-- A moment in the course of a batch, between some of its looks and the others. -/
structure Passes (r : Registry) (clock : Clock) (calls : List ToolCall) (before : List Look) (m : Moment)
    (after : List Look) : Prop where
  looks : before ++ after = r.looks clock calls
  came : Plays r (.start clock calls) before m
  goes : Plays r m after (r.ended clock calls)

variable {clock : Clock} {calls : List ToolCall} {before after : List Look}

theorem Passes.cut (he : before ++ after = r.looks clock calls) : ∃ m, Passes r clock calls before m after := by
  obtain ⟨m, h₁, h₂⟩ := (r.looks_play clock calls).split he.symm
  exact ⟨m, he, h₁, h₂⟩

theorem Passes.start (r : Registry) (clock : Clock) (calls : List ToolCall) :
    Passes r clock calls [] (.start clock calls) (r.looks clock calls) :=
  ⟨rfl, .refl, r.looks_play clock calls⟩

/-- Behind a look there is the moment at which it is over. -/
theorem Passes.behind {l : Look} (hl : l ∈ r.looks clock calls) :
    ∃ (before after : List Look) (m : Moment), r.looks clock calls = before ++ l :: after ∧
      m.calls[l.place]? = some (l.call, l.progress) ∧
      Passes r clock calls (before ++ [l]) (m.look r l) after := by
  obtain ⟨before, after, he⟩ := List.append_of_mem hl
  obtain ⟨m₁, h₁, h₂⟩ := (r.looks_play clock calls).split he
  obtain ⟨m, -, hi, hlook, hafter⟩ := h₂.uncons rfl
  exact ⟨before, after, m, he, hi, by simp [he], h₁.trans hlook, hafter⟩

theorem Passes.entered (h : Passes r clock calls before m after) :
    (∀ l ∈ before, r.Entered l.call l.progress) ∧ ∀ x ∈ m.calls, r.Entered x.1 x.2 := by
  refine h.came.all (P := r.Entered) (fun _ _ _ => .poll) fun x hx => ?_
  obtain ⟨c, -, rfl⟩ := List.mem_map.1 hx
  exact .inl rfl

/-- What no look is taken at stays as it is. -/
theorem Plays.untouched {i : Nat} (hp : Plays r m looks m') (hi : ∀ l ∈ looks, l.place ≠ i) :
    m'.calls[i]? = m.calls[i]? := by
  induction hp with
  | refl => rfl
  | look _ _ ih =>
    obtain ⟨hne, hi⟩ := List.forall_mem_cons.1 hi
    rw [ih hi]
    exact List.getElem?_set_ne hne
  | wait _ _ ih => exact ih hi

/-- From the moment on at which its token is cancelled, nothing of a batch is run any more, and
its calls have their results. -/
theorem Passes.cancelled (h : Passes r clock calls before m after) (hc : m.clock.isCancelled = true) :
    (∀ l ∈ after, l.stretch? r = none) ∧
    (r.execute clock calls).results = m.calls.map fun x => x.1.resultOf (r.lastWord x.1 x.2) := by
  refine ⟨fun l hl => Registry.stretch?_cancelled ((h.goes.cancelled hc).1 l hl), ?_⟩
  rw [r.ended_foreseen, h.goes.foreseen (.inl hc)]
  exact List.map_congr_left fun x hx => by
    rw [Registry.foresee_cancelled hc, (h.entered.2 x hx).cutShort]

end Batch

namespace Registry

variable {r : Registry} {clock : Clock} {calls : List ToolCall}

/-- The look that cancels the token lets a stretch run, which has the last word on its call. -/
theorem look_cancels {l : Look} (hl : l ∈ r.looks clock calls) (hc : l.clock.isCancelled = false)
    (ha : (l.clockAfter r).isCancelled = true) :
    ∃ b, l.stretch? r = some b ∧ (r.execute clock calls).results[l.place]? = some (l.call.resultOf
      ((l.call.advance l.clock b).1.verdict?.getD (.error (.cutOff l.call.id)))) := by
  obtain ⟨before, after, m, -, hi, hp⟩ := Batch.Passes.behind hl
  cases hs : r.stretch? l.call l.clock l.progress with
  | none =>
    have hclock : l.clockAfter r = l.clock := by
      unfold Look.clockAfter
      rcases poll_idle hs with h | ⟨h, -⟩ <;> rw [h]
    rw [hclock, hc] at ha
    cases ha
  | some b =>
    refine ⟨b, hs, ?_⟩
    obtain ⟨hlt, -⟩ := List.getElem?_eq_some_iff.1 hi
    obtain ⟨body, hbody⟩ : ∃ body, r.admit l.call = .ok body := (hp.entered.1 l (by simp)).stretch? hs
    rw [(hp.cancelled ha).2, List.getElem?_map]
    simp [Batch.Moment.look, hlt, lastWord, refusal, hbody, Look.after, poll_stretch hs]

/-- What is cancelled before the calls behind a place have begun leaves them without a look that
runs anything. -/
theorem behind_fresh {l : Look} (hl : l ∈ r.looks clock calls) (hf : l.progress = .fresh)
    (ha : (l.clockAfter r).isCancelled = true) :
    (∀ l' ∈ r.looks clock calls, l.place < l'.place → l'.stretch? r = none) ∧
    ∀ j, l.place < j → (r.execute clock calls).results[j]? =
      calls[j]?.map fun c => c.resultOf (.error (r.refusal c)) := by
  obtain ⟨before, after, m, he, -, hp⟩ := Batch.Passes.behind hl
  obtain ⟨hnone, hresults⟩ := hp.cancelled ha
  -- The calls that were begun before this one stand before it.
  have hplace : ∀ l' ∈ before, l'.place < l.place := by
    have hb := Batch.looks_begin r clock calls
    rw [he] at hb
    exact fun l' hl' => (List.pairwise_append.1 hb).2.2 l' hl' l (by simp) hf
  refine ⟨fun l' hl' hlt => ?_, fun j hj => ?_⟩
  · rw [he] at hl'
    rcases List.mem_append.1 hl' with hl' | hl'
    · exact absurd (hplace l' hl') (Nat.lt_asymm hlt)
    · rcases List.mem_cons.1 hl' with rfl | hl'
      · exact absurd hlt (Nat.lt_irrefl _)
      · exact hnone l' hl'
  · have hj : (m.look r l).calls[j]? = (Batch.Moment.start clock calls).calls[j]? := by
      refine hp.came.untouched fun l' hl' => ?_
      rcases List.mem_append.1 hl' with hl' | hl'
      · exact Nat.ne_of_lt (Nat.lt_trans (hplace l' hl') hj)
      · obtain rfl := List.mem_singleton.1 hl'
        exact Nat.ne_of_lt hj
    rw [hresults, List.getElem?_map, hj]
    simp only [Batch.Moment.start, List.getElem?_map, Option.map_map]
    rfl

/-- **A cancelled batch.** Once the token is cancelled, nothing of a tool's body is started or
resumed any more. A call that has settled by then keeps its end; any other has the error for
which it was never admitted, or is cut off. The call that cancels the token has the end that
it comes to without pausing, if it does. If the token is cancelled before the batch, nothing is
run at all, and if it is by the first stretch of a call, nothing of the calls behind it. -/
theorem execute_cancelled (r : Registry) (clock : Clock) (calls : List ToolCall) :
    (∀ before after, before ++ after = r.looks clock calls →
      ∃ m, Batch.Passes r clock calls before m after) ∧
    (∀ before m after, Batch.Passes r clock calls before m after → m.clock.isCancelled = true →
      (∀ l ∈ after, l.stretch? r = none) ∧
      (r.execute clock calls).results = m.calls.map fun x =>
        x.1.resultOf (x.2.verdict?.getD (.error (r.refusal x.1)))) ∧
    (∀ l ∈ r.looks clock calls, l.clock.isCancelled = false → (l.clockAfter r).isCancelled = true →
      ∃ b, l.stretch? r = some b ∧ (r.execute clock calls).results[l.place]? = some (l.call.resultOf
        ((l.call.advance l.clock b).1.verdict?.getD (.error (.cutOff l.call.id))))) ∧
    (clock.isCancelled = true →
      (∀ l ∈ r.looks clock calls, l.stretch? r = none) ∧
      (r.execute clock calls).results = calls.map fun c => c.resultOf (.error (r.refusal c))) ∧
    (∀ l ∈ r.looks clock calls, l.progress = .fresh → (l.clockAfter r).isCancelled = true →
      (∀ l' ∈ r.looks clock calls, l.place < l'.place → l'.stretch? r = none) ∧
      ∀ j, l.place < j → (r.execute clock calls).results[j]? =
        calls[j]?.map fun c => c.resultOf (.error (r.refusal c))) := by
  refine ⟨fun _ _ => Batch.Passes.cut, fun _ _ _ hp hc => hp.cancelled hc, fun l hl => look_cancels hl,
    fun hc => ?_, fun l hl => behind_fresh hl⟩
  obtain ⟨hl, hr⟩ := (Batch.Passes.start r clock calls).cancelled hc
  refine ⟨hl, hr.trans ?_⟩
  simp only [Batch.Moment.start, List.map_map]
  rfl

/-- A tool that cancels the token and has a value yet, and one that takes its time. -/
def stopper : Registry where
  tools := [
    ⟨"stop", "", .null, fun _ => .cancel (.finish (.value (.string "stopped")))⟩,
    ⟨"slow", "", .null, fun _ => .sleep 30 (.finish (.value (.string "late")))⟩]
  handoffs := []
  distinct := by decide

theorem stopper_cancelled :
    let calls : List ToolCall := [⟨"1", "slow", "null"⟩, ⟨"2", "stop", "null"⟩, ⟨"3", "slow", "null"⟩,
      ⟨"4", "gone", "null"⟩]
    (∀ l ∈ stopper.looks .start calls, 1 < l.place → l.stretch? stopper = none) ∧
    (stopper.execute .start calls).results[1]? = some ⟨"2", "stopped", false⟩ ∧
    (stopper.execute .start calls).results[2]? = some ⟨"3", "Error: Tool call '3' was cancelled", true⟩ ∧
    (stopper.execute .start calls).results[3]? =
      some ⟨"4", "Error: The tool 'gone' is not available.", true⟩ := by
  intro calls
  have hl : ⟨1, ⟨"2", "stop", "null"⟩, .fresh, .start⟩ ∈ stopper.looks .start calls := .tail _ (.head _)
  have hc : (Look.clockAfter stopper ⟨1, ⟨"2", "stop", "null"⟩, .fresh, .start⟩).isCancelled = true := rfl
  obtain ⟨-, -, hcancels, -, hbehind⟩ := execute_cancelled stopper .start calls
  obtain ⟨b, hb, hown⟩ := hcancels _ hl rfl hc
  obtain ⟨hnone, hrest⟩ := hbehind _ hl rfl hc
  cases hb
  exact ⟨hnone, hown, hrest 2 (by decide), hrest 3 (by decide)⟩

end Registry
end ToolAgent
