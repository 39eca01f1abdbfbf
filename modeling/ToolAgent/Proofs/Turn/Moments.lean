/-
A turn from moment to moment.

At every moment a turn comes to the same (`moment_rest`), what has happened in it stays
(`moment_grows`), and it reaches its end and remains there, or is stuck at some time (`moment_end`).
-/
import ToolAgent.Proofs.Turn.Stages

namespace ToolAgent.Agent

variable {σ : Type} (a : Agent) (client : Client σ) (inputs : List ChatMessage) (t : Turn σ)

theorem moment_succ (n : Nat) : a.moment client inputs t (n + 1) =
    a.step client (a.moment client inputs t n).2 (a.moment client inputs t n).1 := rfl

theorem moment_rest (n : Nat) :
    a.rest client (a.moment client inputs t n).2 (a.moment client inputs t n).1 =
      a.turn client inputs t := by
  induction n with
  | zero => rfl
  | succ n ih =>
    rw [moment_succ, step_rest]
    exact ih

theorem moment_grows {n m : Nat} (h : n ≤ m) :
    (a.moment client inputs t n).2.Grows (a.moment client inputs t m).2 := by
  induction m, h using Nat.le_induction with
  | base => exact .refl _
  | succ m _ ih => exact ih.trans (a.step_grows client _ _)

/-- The turn is over. -/
theorem moment_ended {n : Nat} {ending : Ending} (h : (a.moment client inputs t n).1 = .ended ending) :
    a.moment client inputs t n = (.ended (a.turn client inputs t).1, (a.turn client inputs t).2) := by
  have hr : (ending, (a.moment client inputs t n).2) = a.turn client inputs t := by
    rw [← a.moment_rest client inputs t n, h]
    rfl
  rw [← hr]
  exact Prod.ext h rfl

/-- A turn that is stuck stays so. -/
theorem moment_stuck {n m : Nat} (h : (a.moment client inputs t n).1.Stuck) (hm : n ≤ m) :
    a.moment client inputs t m = a.moment client inputs t n := by
  induction m, hm using Nat.le_induction with
  | base => rfl
  | succ m _ ih =>
    rw [moment_succ, ih]
    exact a.step_stuck client _ h

theorem exists_last (n : Nat) : ∃ m, n ≤ m ∧
    ((∃ ending, (a.moment client inputs t m).1 = .ended ending) ∨ (a.moment client inputs t m).1.Stuck) := by
  -- By how much is left to do.
  induction hl : a.left (a.moment client inputs t n).1 using WellFoundedLT.induction generalizing n with
  | ind l ih =>
    by_cases he : ∃ ending, (a.moment client inputs t n).1 = .ended ending
    · exact ⟨n, Nat.le_refl n, .inl he⟩
    · by_cases hs : (a.moment client inputs t n).1.Stuck
      · exact ⟨n, Nat.le_refl n, .inr hs⟩
      · have hlt : a.left (a.moment client inputs t (n + 1)).1 < l :=
          hl ▸ a.step_left client _ (fun ending h => he ⟨ending, h⟩) hs
        obtain ⟨m, hm, hend⟩ := ih _ hlt (n + 1) rfl
        exact ⟨m, Nat.le_of_succ_le hm, hend⟩

/-- After enough steps a turn has come to its end, and it stays there; or it is stuck. -/
theorem moment_end : ∃ n,
    (∀ m, n ≤ m → a.moment client inputs t m = (.ended (a.turn client inputs t).1, (a.turn client inputs t).2)) ∨
      ∀ m, n ≤ m → (a.moment client inputs t m).1.Stuck := by
  obtain ⟨n, -, ⟨ending, he⟩ | hs⟩ := a.exists_last client inputs t 0
  · refine ⟨n, .inl fun m hm => ?_⟩
    induction m, hm using Nat.le_induction with
    | base => exact a.moment_ended client inputs t he
    | succ m _ ih => rw [moment_succ, ih]; rfl
  · refine ⟨n, .inr fun m hm => ?_⟩
    rwa [a.moment_stuck client inputs t hs hm]

/-- What has happened by a moment is part of what the turn comes to. -/
theorem moment_grows_turn (n : Nat) : (a.moment client inputs t n).2.Grows (a.turn client inputs t).2 := by
  obtain ⟨m, hm⟩ := a.moment_end client inputs t
  have h := a.moment_grows client inputs t (Nat.le_max_left n m)
  rcases hm with hm | hm
  · rwa [hm _ (Nat.le_max_right n m)] at h
  · rw [← a.moment_rest client inputs t (max n m)]
    exact h.trans (a.stuck_grows client _ (hm _ (Nat.le_max_right n m)))

end ToolAgent.Agent
