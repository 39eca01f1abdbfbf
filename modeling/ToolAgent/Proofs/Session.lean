/-
Turns one after another: what each finds is what those before it have left.
-/
import ToolAgent.Session

namespace ToolAgent.Session

variable {σ : Type}

/-- What turns that are over leave to the next: the session and the instant. -/
def left (s : Session σ) (now : Nat) (past : List (Ending × Turn σ)) : Session σ × Nat :=
  past.foldl (fun _ e => (.after e.2, e.2.clock.now)) (s, now)

theorem left_append_singleton (s : Session σ) (now : Nat) (past : List (Ending × Turn σ))
    (e : Ending × Turn σ) : s.left now (past ++ [e]) = (.after e.2, e.2.clock.now) := by
  simp [left]

theorem turns_append (a : Agent) (client : Client σ) : ∀ (s : Session σ) (now : Nat)
    (jobs more : List (List ChatMessage × Token)),
    s.turns a client now (jobs ++ more) =
      s.turns a client now jobs ++
        (s.left now (s.turns a client now jobs)).1.turns a client
          (s.left now (s.turns a client now jobs)).2 more
  | _, _, [], _ => rfl
  | s, now, (inputs, token) :: jobs, more => by
    simp only [List.cons_append, turns]
    rw [turns_append a client _ _ jobs more]
    rfl

theorem turns_length (a : Agent) (client : Client σ) : ∀ (s : Session σ) (now : Nat)
    (jobs : List (List ChatMessage × Token)), (s.turns a client now jobs).length = jobs.length
  | _, _, [] => rfl
  | s, now, (inputs, token) :: jobs => by simp [turns, turns_length]

/-- The turns behind one of many see no more of it than the session and the instant it leaves. -/
theorem turns_behind (a : Agent) (client : Client σ) {s : Session σ} {now : Nat}
    {jobs : List (List ChatMessage × Token)} {before after : List (Ending × Turn σ)} {e : Ending × Turn σ}
    (h : s.turns a client now jobs = before ++ e :: after) :
    after = (Session.after e.2).turns a client e.2.clock.now (jobs.drop (before.length + 1)) := by
  induction before generalizing s now jobs with
  | nil =>
    cases jobs with
    | nil => cases h
    | cons job jobs =>
      obtain ⟨rfl, rfl⟩ := List.cons.inj h
      rfl
  | cons e' before ih =>
    cases jobs with
    | nil => cases h
    | cons job jobs =>
      obtain ⟨-, h⟩ := List.cons.inj h
      exact ih h

end ToolAgent.Session
