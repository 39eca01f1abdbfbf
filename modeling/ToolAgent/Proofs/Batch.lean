/-
What a batch keeps of its calls: rounds change the progress of calls, never the
calls or their places, so the results come back one for one, under the ids of
the calls.
-/
import ToolAgent.Batch

namespace ToolAgent

@[simp] theorem ToolCall.resultOf_callId (c : ToolCall) (v : Verdict) : (c.resultOf v).callId = c.id := by
  cases v <;> rfl

namespace Batch

theorem round_calls (r : Registry) : ∀ (line : Line) (clock : Clock) (calls : Calls),
    (round r clock calls line).1.map (·.1) = calls.map (·.1)
  | [], _, _ => rfl
  | i :: line, clock, calls => by
    rw [round]
    split
    · exact round_calls r line clock calls
    next c p hi =>
      simp only
      rw [round_calls r line, List.map_set]
      -- The place `i` gets the call it holds already.
      have hc : (calls.map (·.1))[i]? = some c := by simp [hi]
      obtain ⟨hlt, rfl⟩ := List.getElem?_eq_some_iff.1 hc
      exact List.set_getElem_self hlt

theorem rounds_calls (r : Registry) : ∀ (bound : Nat) (clock : Clock) (calls : Calls) (rested line : Line),
    (rounds r bound clock calls rested line).1.map (·.1) = calls.map (·.1)
  | 0, _, _, _, _ => rfl
  | bound + 1, clock, calls, rested, line => by
    have hr := round_calls r line clock calls
    simp only [rounds]
    split
    · exact hr
    · split
      · exact hr
      · simp only [rounds_calls r bound, hr]

/-- Calls have results once all of them are settled. -/
theorem results?_eq : ∀ calls : Calls, results? calls =
    if isSettled calls then some (calls.map fun (c, p) => c.resultOf (verdict c p)) else none
  | [] => rfl
  | (c, p) :: calls => by
    have ih := results?_eq calls
    rw [results?] at ih ⊢
    rw [List.mapM_cons, ih]
    cases p with
    | settled v =>
      have hs : isSettled ((c, .settled v) :: calls) = isSettled calls := rfl
      rw [hs]
      cases isSettled calls <;> rfl
    | _ => rfl

/-- There is a report once all calls are settled. -/
theorem report?_eq (ran : Calls × Clock × List Audit) :
    report? ran = if isSettled ran.1 then some (report ran) else none := by
  obtain ⟨calls, clock, audits⟩ := ran
  rw [report?, results?_eq]
  cases isSettled calls <;> rfl

theorem report?_eq_some {ran : Calls × Clock × List Audit} {b : BatchReport} :
    report? ran = some b ↔ isSettled ran.1 = true ∧ report ran = b := by
  rw [report?_eq, Option.ite_none_right_eq_some, Option.some.injEq]

theorem report?_eq_none {ran : Calls × Clock × List Audit} : report? ran = none ↔ isSettled ran.1 = false := by
  simp [report?_eq]

end Batch

namespace Registry

/-- The results of a batch are as many as its calls, with their ids in their order. -/
theorem execute_callIds (r : Registry) (clock : Clock) (calls : List ToolCall) :
    (r.execute clock calls).results.map (·.callId) = calls.map (·.id) := by
  have h : (r.allRounds clock calls).1.map (·.1) = (calls.map fun c => (c, Progress.fresh)).map (·.1) :=
    Batch.rounds_calls ..
  simp only [List.map_map, Function.comp_def, List.map_id'] at h
  calc (r.execute clock calls).results.map (·.callId)
      = ((r.allRounds clock calls).1.map (·.1)).map (·.id) := by
        simp [execute, Batch.report, Function.comp_def]
    _ = calls.map (·.id) := by rw [h]

theorem execute_length (r : Registry) (clock : Clock) (calls : List ToolCall) :
    (r.execute clock calls).results.length = calls.length := by
  simpa using congrArg List.length (r.execute_callIds clock calls)

end Registry
end ToolAgent
