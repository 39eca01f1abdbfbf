/-
Step by step a turn comes to the same as at once.

`Agent.rest` is what a turn at some stage comes to when nobody interferes, if it ends. No
step changes that (`step_rest`), every step brings the end nearer unless the turn is stuck
(`step_left`), and nothing that has happened is ever taken back (`step_grows`).
-/
import ToolAgent.Turn.Stage
import ToolAgent.Proofs.Batch
import ToolAgent.Proofs.Turn
import Mathlib.Data.Prod.Lex

namespace ToolAgent

variable {σ : Type}

/-! ## Batches -/

namespace Effort

/-- All rounds that are left of the batch. -/
def rounds (r : Registry) (e : Effort) : Batch.Calls × Clock × List Audit :=
  let (calls, clock, audits) := Batch.rounds r e.bound e.clock e.calls e.rested e.line
  (calls, clock, e.audits ++ audits)

/-- What comes of the batch, if it ends. -/
def rest (r : Registry) (e : Effort) : BatchReport := Batch.report (e.rounds r)

theorem start_rounds (r : Registry) (clock : Clock) (calls : List ToolCall) :
    (start r clock calls).rounds r = r.allRounds clock calls := rfl

theorem rounds_over {r : Registry} {e : Effort} (h : e.bound = 0) : e.rounds r = (e.calls, e.clock, e.audits) := by
  simp [rounds, h, Batch.rounds]

theorem step_rounds (r : Registry) (e : Effort) : (e.step r).rounds r = e.rounds r := by
  obtain ⟨bound, clock, calls, rested, line, audits⟩ := e
  cases bound with
  | zero => rfl
  | succ bound =>
    match hr : Batch.round r clock calls line with
    | (calls', clock', audits') =>
      cases hs : Batch.isSettled calls' with
      | true => simp [step, rounds, Batch.rounds, hr, hs]
      | false =>
        cases hn : Batch.nextClock? clock' calls' with
        | none => simp [step, rounds, Batch.rounds, hr, hs, hn]
        | some next => simp [step, rounds, Batch.rounds, hr, hs, hn]

/-- The report on a batch that is over, if it has one, is what comes of it. -/
theorem rest_report? {r : Registry} {e : Effort} {report : BatchReport} (h : e.bound = 0)
    (hr : e.report? = some report) : e.rest r = report := by
  rw [rest, rounds_over h]
  exact (Batch.report?_eq_some.1 hr).2

theorem step_bound (r : Registry) {e : Effort} (h : e.bound ≠ 0) : (e.step r).bound < e.bound := by
  obtain ⟨bound, clock, calls, rested, line, audits⟩ := e
  cases bound with
  | zero => exact absurd rfl h
  | succ bound =>
    simp only [step]
    split
    · exact Nat.succ_pos bound
    · split
      · exact Nat.succ_pos bound
      · exact Nat.lt_succ_self bound

end Effort

namespace Agent

/-! ## Turns -/

/-- What a turn at a stage comes to, if it ends. -/
def rest (a : Agent) (client : Client σ) (t : Turn σ) : Stage → Ending × Turn σ
  | .arriving inputs => a.turn client inputs t
  | .recalling ps =>
    match a.augment ps t with
    | (.error stop, t) => (.error stop, t)
    | (.ok (), t) => a.answer client t
  | .asking => a.answer client t
  | .calling calls usage =>
    let (results, t) := a.callTools calls usage t
    a.conclude client calls results t
  | .executing calls effort =>
    let report := effort.rest a.registry
    a.conclude client calls report.results (a.collect report t)
  | .concluding calls results => a.conclude client calls results t
  | .reflecting => a.reflect client t
  | .ended ending => (ending, t)

/-- No step changes what a turn comes to. -/
theorem step_rest (a : Agent) (client : Client σ) (t : Turn σ) (stage : Stage) :
    a.rest client (a.step client t stage).2 (a.step client t stage).1 = a.rest client t stage := by
  cases stage with
  | arriving inputs =>
    match h : takeIn client.capabilities inputs t with
    | (.error stop, t') => simp only [step, rest, turn, h]
    | (.ok (), t') =>
      match h' : a.augment a.memory t' with
      | (.error stop, t'') => simp only [step, rest, turn, h, h']
      | (.ok (), t'') => simp only [step, rest, turn, h, h']
  | recalling ps =>
    cases ps with
    | nil => rfl
    | cons p ps =>
      match h : a.augment [p] t with
      | (.error stop, t') => simp only [step, rest, a.augment_cons p ps t, h]
      | (.ok (), t') => simp only [step, rest, a.augment_cons p ps t, h]
  | asking =>
    match h : a.ask client a.registry.offers t with
    | (.error stop, t') => simp only [step, rest, answer, h]
    | (.ok ⟨.text text, usage⟩, t') => simp only [step, rest, answer, h]; rfl
    | (.ok ⟨.toolCalls calls, usage⟩, t') => simp only [step, rest, answer, h]
  | calling calls usage => rfl
  | executing calls effort =>
    simp only [step]
    split
    next h =>
      split
      next report hr => simp only [rest, Effort.rest_report? h hr]
      next => rfl
    next h => simp only [rest, Effort.rest, Effort.step_rounds]
  | concluding calls results =>
    simp only [step]
    split
    next h => simp only [rest, conclude, h.1, h.2, if_true]
    next => rfl
  | reflecting => rfl
  | ended ending => rfl

end Agent

/-! ## What has happened -/

/-- What has happened in a turn is never taken back: events that are out, inquiries that are made. -/
structure Turn.Grows (t t' : Turn σ) : Prop where
  events : t.events <+: t'.events
  inquiries : t.inquiries <+: t'.inquiries

namespace Turn.Grows

variable {t t₁ t₂ : Turn σ}

theorem of_eq (he : t₁.events = t.events) (hi : t₁.inquiries = t.inquiries) : t.Grows t₁ :=
  ⟨he ▸ List.prefix_rfl, hi ▸ List.prefix_rfl⟩

theorem refl (t : Turn σ) : t.Grows t := ⟨List.prefix_rfl, List.prefix_rfl⟩

theorem trans (h : t.Grows t₁) (h' : t₁.Grows t₂) : t.Grows t₂ :=
  ⟨h.events.trans h'.events, h.inquiries.trans h'.inquiries⟩

theorem emit (t : Turn σ) (e : Event) : t.Grows (t.emit e) := ⟨List.prefix_append _ _, List.prefix_rfl⟩

end Turn.Grows

namespace Agent

theorem Asks.grows {a : Agent} {client : Client σ} {tools : List ToolOffer} {t t' : Turn σ}
    {r : Except Stop Inference} (h : a.Asks client tools t (r, t')) : t.Grows t' := by
  cases h with
  | cancelled => exact .refl _
  | refused | accepted => exact ⟨List.prefix_rfl, List.prefix_append _ _⟩

theorem reflect_grows (a : Agent) (client : Client σ) (t : Turn σ) : t.Grows (a.reflect client t).2 := by
  have h := a.ask_asks client [] t
  unfold reflect
  match he : a.ask client [] t with
  | (.error stop, t') => rw [he] at h; exact h.grows
  | (.ok ⟨.text text, usage⟩, t') => rw [he] at h; exact h.grows
  | (.ok ⟨.toolCalls calls, usage⟩, t') => rw [he] at h; exact h.grows

theorem conclude_grows (a : Agent) (client : Client σ) (calls : List ToolCall) (results : List ToolResult)
    (t : Turn σ) : t.Grows (a.conclude client calls results t).2 := by
  unfold conclude
  split
  · simp only [respond]
    split
    · exact .refl _
    · exact .of_eq rfl rfl
  · split
    · exact a.reflect_grows client t
    · exact .refl _

theorem collect_grows (a : Agent) (report : BatchReport) (t : Turn σ) : t.Grows (a.collect report t) :=
  ⟨List.prefix_append _ _, List.prefix_rfl⟩

theorem augment_grows (a : Agent) : ∀ (ps : List Provider) (t : Turn σ), t.Grows (a.augment ps t).2
  | [], t => .refl t
  | p :: ps, t => by
    match hu : p.update t.context t.clock with
    | (messages, recalled, clock) =>
      cases recalled with
      | items items =>
        simp only [augment, hu]
        refine Turn.Grows.trans ?_ (augment_grows a ps _)
        unfold Turn.emitQuery
        split
        · exact .of_eq rfl rfl
        · exact ⟨List.prefix_append _ _, List.prefix_rfl⟩
      | failure | panic => simp only [augment, hu]; exact .of_eq rfl rfl

/-- A step takes nothing back. -/
theorem step_grows (a : Agent) (client : Client σ) (t : Turn σ) (stage : Stage) :
    t.Grows (a.step client t stage).2 := by
  cases stage with
  | arriving inputs =>
    simp only [step]
    rcases takeIn_eq client.capabilities inputs t with ⟨-, h⟩ | ⟨-, h⟩
    · rw [h]; exact .refl _
    · rw [h]; exact .of_eq rfl rfl
  | recalling ps =>
    cases ps with
    | nil => exact .refl _
    | cons p ps =>
      have he := a.augment_grows [p] t
      simp only [step]
      split
      next h => rwa [h] at he
      next h => rwa [h] at he
  | asking =>
    have ha := a.ask_asks client a.registry.offers t
    simp only [step]
    split
    next h => rw [h] at ha; exact ha.grows
    next h => rw [h] at ha; exact ha.grows
    next h => rw [h] at ha; exact ha.grows
  | calling calls usage => exact .emit t _
  | executing calls effort =>
    simp only [step]
    split
    · split
      · exact a.collect_grows _ t
      · exact .refl _
    · exact .refl _
  | concluding calls results =>
    simp only [step]
    split
    · exact .refl _
    · exact a.conclude_grows client calls results t
  | reflecting => exact a.reflect_grows client t
  | ended ending => exact .refl _

/-- Nor is anything taken back by what would follow if a turn were not stuck. -/
theorem stuck_grows (a : Agent) (client : Client σ) (t : Turn σ) {stage : Stage} (h : stage.Stuck) :
    t.Grows (a.rest client t stage).2 := by
  cases stage with
  | executing calls effort => exact (a.collect_grows _ t).trans (a.conclude_grows client calls _ _)
  | _ => exact h.elim

/-! ## The end -/

/-- How many steps are left, and how many rounds while a batch is under way. -/
def left (a : Agent) : Stage → Nat ×ₗ Nat
  | .arriving _ => toLex (a.memory.length + 7, 0)
  | .recalling ps => toLex (ps.length + 6, 0)
  | .asking => toLex (5, 0)
  | .calling .. => toLex (4, 0)
  | .executing _ effort => toLex (3, effort.bound)
  | .concluding .. => toLex (2, 0)
  | .reflecting => toLex (1, 0)
  | .ended _ => toLex (0, 0)

theorem left_lt_of_fst {n m k l : Nat} (h : n < m) : toLex (n, k) < toLex (m, l) :=
  Prod.Lex.toLex_lt_toLex.2 (.inl h)

/-- A turn that is stuck stays so. -/
theorem step_stuck (a : Agent) (client : Client σ) (t : Turn σ) {stage : Stage} (h : stage.Stuck) :
    a.step client t stage = (stage, t) := by
  cases stage with
  | executing calls effort =>
    obtain ⟨hb, hr⟩ := h
    simp only [step, if_pos hb, hr]
  | _ => exact h.elim

/-- Every step brings the end nearer, unless the turn is stuck. -/
theorem step_left (a : Agent) (client : Client σ) (t : Turn σ) {stage : Stage}
    (h : ∀ ending, stage ≠ .ended ending) (hs : ¬ stage.Stuck) : a.left (a.step client t stage).1 < a.left stage := by
  cases stage with
  | arriving inputs =>
    simp only [step]
    split
    · exact left_lt_of_fst (by omega)
    · exact left_lt_of_fst (by omega)
  | recalling ps =>
    cases ps with
    | nil => exact left_lt_of_fst (by simp)
    | cons p ps =>
      simp only [step]
      split
      · exact left_lt_of_fst (by omega)
      · exact left_lt_of_fst (by simp)
  | asking =>
    simp only [step]
    split
    · exact left_lt_of_fst (by omega)
    · exact left_lt_of_fst (by omega)
    · exact left_lt_of_fst (by omega)
  | calling calls usage => exact left_lt_of_fst (by omega)
  | executing calls effort =>
    simp only [step]
    split
    next hb =>
      split
      · exact left_lt_of_fst (by omega)
      next hr => exact absurd ⟨hb, hr⟩ hs
    next hb => exact Prod.Lex.toLex_lt_toLex.2 (.inr ⟨rfl, Effort.step_bound _ hb⟩)
  | concluding calls results =>
    simp only [step]
    split
    · exact left_lt_of_fst (by omega)
    · exact left_lt_of_fst (by omega)
  | reflecting => exact left_lt_of_fst (by omega)
  | ended ending => exact absurd rfl (h ending)

end Agent
end ToolAgent
