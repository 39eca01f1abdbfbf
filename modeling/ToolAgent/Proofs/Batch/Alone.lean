/-
No call of a batch changes what becomes of another.

As long as no tool cancels the token, a batch gives each call the result it has alone, whatever
the others do and however long they take (`execute_alone`).
-/
import ToolAgent.Proofs.Batch.Foresight

namespace ToolAgent

namespace Batch

variable {r : Registry} {m m' : Moment} {looks : List Look}

/-- What is announced of a cancellation from outside stays the same. -/
theorem Plays.alarm (hp : Plays r m looks m') : m'.clock.alarm = m.clock.alarm := by
  induction hp with
  | refl => rfl
  | @look m i c p looks m' _ _ ih =>
    rcases r.poll_clock c m.clock p with hc | hc <;>
      simpa [Moment.look, Look.clockAfter, hc, Clock.cancel] using ih
  | wait hn _ ih =>
    rcases nextClock?_eq_some hn with ⟨-, rfl⟩ | ⟨now, -, rfl⟩ <;> exact ih

end Batch

namespace Registry

variable {r : Registry} {clock : Clock} {calls : List ToolCall}

/-- All calls come to an end of their own, unless one waits for a cancellation and there may be
none. -/
theorem ended_settled (h : clock.cancelled = true ∨ clock.alarm.isSome = true ∨
      ∀ c ∈ calls, ∀ body, r.admit c = .ok body → body.awaits = false) :
    Batch.isSettled (r.ended clock calls).calls = true := by
  have hp := r.looks_play clock calls
  refine List.all_eq_true.2 fun (c, p) hx => ?_
  rcases (r.ended_over clock calls).settled_or_awaiting hx with ⟨v, rfl⟩ | ⟨⟨rest, rfl⟩, hc, ha⟩
  · rfl
  · rcases h with h | h | h
    · have hstart : clock.isCancelled = true := by simp [Clock.isCancelled, h]
      rw [(hp.cancelled hstart).2] at hc
      cases hc
    · rw [show clock.alarm = none from hp.alarm ▸ ha] at h
      cases h
    · cases Batch.Never.plays hp (Batch.Never.start h) _ hx

theorem execute_eq_alone (h : ∀ c ∈ calls, ∀ body, r.admit c = .ok body → body.cancels = false) :
    (r.execute clock calls).results = calls.map (r.executeAlone clock) := by
  rw [ended_foreseen, (r.looks_play clock calls).foreseen (.inr (.start h)), start_foreseen]

/-- **Calls keep to themselves.** As long as no tool of a batch cancels the token, there is a
result for each call, in the order of the requests and under its id, and it is the one the call
has in a batch of its own, under the same clock. And the batch does come to an end, unless a tool
waits for a cancellation that nobody has announced. -/
theorem execute_alone (r : Registry) (clock : Clock) (calls : List ToolCall)
    (h : ∀ c ∈ calls, ∀ body, r.admit c = .ok body → body.cancels = false) :
    (r.execute clock calls).results.length = calls.length ∧
    (r.execute clock calls).results.map (·.callId) = calls.map (·.id) ∧
    (r.execute clock calls).results = calls.map (r.executeAlone clock) ∧
    (∀ c ∈ calls, (r.execute clock [c]).results = [r.executeAlone clock c]) ∧
    ((clock.cancelled = true ∨ clock.alarm.isSome = true ∨
        ∀ c ∈ calls, ∀ body, r.admit c = .ok body → body.awaits = false) →
      Batch.isSettled (r.ended clock calls).calls = true) := by
  refine ⟨r.execute_length clock calls, r.execute_callIds clock calls, execute_eq_alone h, fun c hc => ?_,
    ended_settled⟩
  exact execute_eq_alone (by simpa using h c hc)

/-- What is admitted is the body of a tool on offer. -/
theorem admit_ok {c : ToolCall} {body : Body} (h : r.admit c = .ok body) :
    ∃ tool ∈ r.all, ∃ args, body = tool.body args := by
  unfold Registry.admit at h
  split at h
  · cases h
  · split at h
    · cases h
    next tool ht =>
      split at h
      · cases h
      next args _ => exact ⟨tool, List.mem_of_find?_eq_some ht, args, (Except.ok.inj h).symm⟩

/-- Three tools: one takes its time, one gives way and fails, and one breaks down at once. -/
def crew : Registry where
  tools := [
    ⟨"slow", "", .null, fun _ => .sleep 30 (.finish (.value (.string "late")))⟩,
    ⟨"weak", "", .null, fun _ => .giveWay (.finish (.failure "no luck"))⟩,
    ⟨"wild", "", .null, fun _ => .finish .panic⟩]
  handoffs := []
  distinct := by decide

theorem crew_alone :
    let calls : List ToolCall := [⟨"1", "slow", "null"⟩, ⟨"1", "weak", "null"⟩, ⟨"2", "wild", "null"⟩]
    (∀ c ∈ calls, ∀ body, crew.admit c = .ok body → body.cancels = false) ∧
    (crew.execute ⟨0, false, some 20⟩ calls).results = [
      ⟨"1", "Error: Tool call '1' was cancelled", true⟩,
      ⟨"1", "Error: no luck", true⟩,
      ⟨"2", "Error: Tool 'wild' panicked", true⟩] := by
  intro calls
  have h : ∀ c ∈ calls, ∀ body, crew.admit c = .ok body → body.cancels = false := by
    intro c _ body hb
    obtain ⟨tool, ht, args, rfl⟩ := admit_ok hb
    simp only [all, crew, List.map_nil, List.append_nil, List.mem_cons, List.not_mem_nil, or_false] at ht
    rcases ht with rfl | rfl | rfl <;> rfl
  refine ⟨h, ?_⟩
  obtain ⟨-, -, he, -⟩ := execute_alone crew ⟨0, false, some 20⟩ calls h
  rw [he]
  rfl

end Registry
end ToolAgent
