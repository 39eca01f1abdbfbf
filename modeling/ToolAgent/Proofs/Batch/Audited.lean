/-
The audit log of a batch, beside its results.

A look that settles its call leaves one record, and any other none. So the places of the records
(`Registry.recordedPlaces`) are those of the calls, each once, if the batch comes to an end, and up
to any moment they are the places that are settled by then. What a record says is what the result
says, since both are made of the one end of the call (`Registry.Ends`).
-/
import Mathlib.Data.List.Forall2
import ToolAgent.Proofs.Batch.Fate

namespace ToolAgent

/-! ## Records by place -/

/-- A record for each of those that pass a test, and none for the others. -/
theorem forall₂_filter_flatMap {α β : Type} {R : Nat → β → Prop} {test : α → Bool} {place : α → Nat}
    {f : α → List β} : ∀ {xs : List α}, (∀ x ∈ xs, test x = true → ∃ b, f x = [b] ∧ R (place x) b) →
      (∀ x ∈ xs, test x = false → f x = []) → List.Forall₂ R ((xs.filter test).map place) (xs.flatMap f)
  | [], _, _ => .nil
  | x :: xs, hsome, hnone => by
    have ih := forall₂_filter_flatMap (fun y hy => hsome y (.tail _ hy)) fun y hy => hnone y (.tail _ hy)
    cases hx : test x with
    | true =>
      obtain ⟨b, hf, hb⟩ := hsome x (.head _) hx
      rw [List.filter_cons_of_pos hx, List.flatMap_cons, hf]
      exact .cons hb ih
    | false =>
      rw [List.filter_cons_of_neg (by simp [hx]), List.flatMap_cons, hnone x (.head _) hx]
      exact ih

namespace Look

variable {r : Registry} {l : Look}

/-- The look settles its call. -/
def settles (r : Registry) (l : Look) : Bool := l.progress.verdict?.isNone && (l.after r).verdict?.isSome

theorem settles_iff : l.settles r = true ↔ l.progress.verdict? = none ∧ ∃ v, l.after r = .settled v := by
  rw [settles, Bool.and_eq_true, Option.isNone_iff_eq_none]
  refine and_congr_right fun _ => ?_
  cases l.after r <;> simp [Progress.verdict?]

theorem audits_of_settles {v : Verdict} (hopen : l.progress.verdict? = none) (hv : l.after r = .settled v) :
    l.audits r = [l.call.auditOf v] := by
  simp only [audits, Batch.newAudit, hopen, hv]
  rfl

theorem audits_of_not_settles (h : l.settles r = false) : l.audits r = [] := by
  simp only [audits, Batch.newAudit]
  split
  next hopen hv =>
    simp [settles, hopen, hv] at h
  next => rfl

end Look

namespace Batch

variable {r : Registry} {m m' : Moment} {looks : List Look} {i : Nat}

/-- At this place stands a call that is not settled. -/
def Moment.OpenAt (m : Moment) (i : Nat) : Prop := ∃ c p, m.calls[i]? = some (c, p) ∧ p.verdict? = none

def Moment.SettledAt (m : Moment) (i : Nat) : Prop := ∃ c v, m.calls[i]? = some (c, .settled v)

/-- The record of the settled call at a place. -/
def Moment.Records (m : Moment) (i : Nat) (a : Audit) : Prop :=
  ∃ c v, m.calls[i]? = some (c, .settled v) ∧ a = c.auditOf v

/-- Where looks settle calls. -/
def settledPlaces (r : Registry) (looks : List Look) : List Nat := (looks.filter (Look.settles r)).map (·.place)

theorem settledPlaces_cons (l : Look) (looks : List Look) : settledPlaces r (l :: looks) =
    if l.settles r then l.place :: settledPlaces r looks else settledPlaces r looks := by
  rw [settledPlaces, List.filter_cons]
  split <;> rfl

theorem settledPlaces_append (looks looks' : List Look) :
    settledPlaces r (looks ++ looks') = settledPlaces r looks ++ settledPlaces r looks' := by
  rw [settledPlaces, List.filter_append, List.map_append]
  rfl

theorem Moment.not_openAt_of_settledAt (h : m.SettledAt i) : ¬ m.OpenAt i := by
  obtain ⟨c, v, h⟩ := h
  rintro ⟨c', p, h', hopen⟩
  rw [h] at h'
  cases h'
  cases hopen

theorem Moment.openAt_or_settledAt (h : i < m.calls.length) : m.OpenAt i ∨ m.SettledAt i := by
  obtain ⟨c, p, hi⟩ : ∃ c p, m.calls[i]? = some (c, p) := ⟨_, _, List.getElem?_eq_getElem h⟩
  cases p with
  | settled v => exact .inr ⟨c, v, hi⟩
  | _ => exact .inl ⟨c, _, hi, rfl⟩

/-- What is open behind a look was so before, and the look has not settled it. -/
theorem Moment.look_openAt {l : Look} (hl : m.calls[l.place]? = some (l.call, l.progress)) :
    (m.look r l).OpenAt i ↔ m.OpenAt i ∧ (l.place = i → l.settles r = false) := by
  by_cases hi : l.place = i
  · subst hi
    have hself : (m.look r l).calls[l.place]? = some (l.call, l.after r) := look_self hl
    simp only [OpenAt, hself, hl, Option.some.injEq, Prod.mk.injEq, forall_const]
    constructor
    · rintro ⟨_, _, ⟨rfl, rfl⟩, hopen⟩
      refine ⟨⟨_, _, ⟨rfl, rfl⟩, ?_⟩, by simp [Look.settles, hopen]⟩
      cases hp : l.progress with
      | settled v =>
        have hafter : l.after r = .settled v := by rw [Look.after, hp]; rfl
        rw [hafter] at hopen
        cases hopen
      | _ => rfl
    · rintro ⟨⟨_, _, ⟨rfl, rfl⟩, hopen⟩, hs⟩
      exact ⟨_, _, ⟨rfl, rfl⟩, by simpa [Look.settles, hopen] using hs⟩
  · simp only [OpenAt, look_other hi, hi, false_implies, and_true]

/-- Looks settle a call once, if at all: when it is open before them and settled behind. -/
theorem Plays.settledPlaces_spec (hp : Plays r m looks m') : (settledPlaces r looks).Nodup ∧
    ∀ i, i ∈ settledPlaces r looks ↔ m.OpenAt i ∧ m'.SettledAt i := by
  induction hp with
  | refl =>
    refine ⟨.nil, fun i => ?_⟩
    simp only [settledPlaces, List.filter_nil, List.map_nil, List.not_mem_nil, false_iff]
    exact fun ⟨hopen, hset⟩ => Moment.not_openAt_of_settledAt hset hopen
  | @look m j c p looks m' hj hrest ih =>
    obtain ⟨hnodup, hmem⟩ := ih
    have hopen {i} : (m.look r ⟨j, c, p, m.clock⟩).OpenAt i ↔
        m.OpenAt i ∧ (j = i → Look.settles r ⟨j, c, p, m.clock⟩ = false) := Moment.look_openAt hj
    simp only [hopen] at hmem
    rw [settledPlaces_cons]
    cases hs : Look.settles r ⟨j, c, p, m.clock⟩ with
    | false => exact ⟨hnodup, fun i => by simpa [hs] using hmem i⟩
    | true =>
      obtain ⟨hnone, v, hv⟩ := Look.settles_iff.1 hs
      have hset : m'.SettledAt j := by
        refine ⟨c, v, hrest.settled ?_⟩
        rw [Moment.look_self (l := ⟨j, c, p, m.clock⟩) hj, hv]
      have hj' : j ∉ settledPlaces r looks := fun h => absurd (((hmem j).1 h).1.2 rfl) (by simp [hs])
      refine ⟨List.nodup_cons.2 ⟨hj', hnodup⟩, fun i => ?_⟩
      by_cases hij : i = j
      · subst hij
        simpa [hset] using ⟨c, p, hj, hnone⟩
      · simp [hmem, hij, Ne.symm hij]
  | wait _ _ ih => exact ih

theorem Plays.records (hp : Plays r m looks m') :
    List.Forall₂ m'.Records (settledPlaces r looks) (looks.flatMap (Look.audits r)) := by
  refine forall₂_filter_flatMap (fun l hl hs => ?_) fun l _ hs => Look.audits_of_not_settles hs
  obtain ⟨hopen, v, hv⟩ := Look.settles_iff.1 hs
  exact ⟨_, Look.audits_of_settles hopen hv, l.call, _, hp.settles hl hv, rfl⟩

end Batch

namespace Registry

variable {r : Registry} {clock : Clock} {calls : List ToolCall} {i : Nat} {c : ToolCall}

/-- The places of the calls that come to an end, in the order of their records. -/
def recordedPlaces (r : Registry) (clock : Clock) (calls : List ToolCall) : List Nat :=
  Batch.settledPlaces r (r.looks clock calls)

theorem start_openAt : (Batch.Moment.start clock calls).OpenAt i ↔ i < calls.length := by
  simp [Batch.Moment.OpenAt, Batch.Moment.start, Progress.verdict?, List.getElem?_eq_some_iff]

/-- In a batch that comes to an end, each place is recorded once. -/
theorem recordedPlaces_perm (h : Batch.isSettled (r.ended clock calls).calls = true) :
    (r.recordedPlaces clock calls).Perm (List.range calls.length) := by
  obtain ⟨hnodup, hmem⟩ := (r.looks_play clock calls).settledPlaces_spec
  have hlength : (r.ended clock calls).calls.length = calls.length := by
    simpa using congrArg List.length (r.ended_calls clock calls)
  refine (List.perm_ext_iff_of_nodup hnodup List.nodup_range).2 fun i => ?_
  rw [hmem, start_openAt, List.mem_range]
  refine and_iff_left_of_imp fun hi => ?_
  refine (Batch.Moment.openAt_or_settledAt (hlength ▸ hi)).resolve_left ?_
  rintro ⟨c, p, hc, hopen⟩
  have hset : p.verdict?.isSome = true := List.all_eq_true.1 h _ (List.mem_of_getElem? hc)
  rw [hopen] at hset
  cases hset

theorem audits_records (r : Registry) (clock : Clock) (calls : List ToolCall) :
    List.Forall₂ (r.ended clock calls).Records (r.recordedPlaces clock calls) (r.execute clock calls).audits := by
  rw [looks_audits]
  exact (r.looks_play clock calls).records

/-- Up to a moment the log has the records of those calls that are settled by then. -/
theorem recordedPlaces_take {before after : List Look} {m : Batch.Moment}
    (h : Batch.Passes r clock calls before m after) :
    ∃ k, before.flatMap (Look.audits r) = (r.execute clock calls).audits.take k ∧
      ∀ i, i ∈ (r.recordedPlaces clock calls).take k ↔ m.SettledAt i := by
  have hlength := h.came.records.length_eq
  refine ⟨(before.flatMap (Look.audits r)).length, ?_, fun i => ?_⟩
  · rw [looks_audits, ← h.looks, List.flatMap_append, List.take_left]
  · rw [recordedPlaces, ← h.looks, Batch.settledPlaces_append, ← hlength, List.take_left,
      h.came.settledPlaces_spec.2, start_openAt]
    refine and_iff_right_of_imp ?_
    rintro ⟨c, v, hi⟩
    have hcall : (m.calls.map (·.1))[i]? = some c := by simp [hi]
    rw [h.came.calls.1, start_calls] at hcall
    exact (List.getElem?_eq_some_iff.1 hcall).1

/-! ## What records and results say -/

theorem isEmpty_iff : r.isEmpty = true ↔ r.all = [] := List.isEmpty_iff

theorem get?_of_empty {name : String} (h : r.all = []) : r.get? name = none := by
  rw [get?, h]
  rfl

theorem admit_eq_ok_iff {body : Body} : r.admit c = .ok body ↔
    ∃ tool args, r.get? c.name = some tool ∧ Json.parse c.arguments = .ok args ∧ body = tool.body args := by
  unfold Registry.admit
  split
  next he => simp [get?_of_empty (isEmpty_iff.1 he)]
  next =>
    cases r.get? c.name with
    | none => simp
    | some tool => cases Json.parse c.arguments <;> simp [eq_comm]

theorem admit_error {e : CallError} (h : r.admit c = .error e) : (r.all = [] ∧ e = .noTools) ∨
    (r.all ≠ [] ∧ r.get? c.name = none ∧ e = .notAvailable c.name) ∨
    ∃ tool fault, r.get? c.name = some tool ∧ Json.parse c.arguments = .error fault ∧
      e = .invalidArguments c.name fault := by
  unfold Registry.admit at h
  split at h
  next he =>
    cases h
    exact .inl ⟨isEmpty_iff.1 he, rfl⟩
  next he =>
    cases hname : r.get? c.name with
    | none =>
      simp only [hname] at h
      cases h
      exact .inr (.inl ⟨fun hall => he (isEmpty_iff.2 hall), rfl, rfl⟩)
    | some tool =>
      cases hargs : Json.parse c.arguments with
      | error fault =>
        simp only [hname, hargs] at h
        cases h
        exact .inr (.inr ⟨tool, fault, rfl, rfl, rfl⟩)
      | ok args => simp [hname, hargs] at h

/-- The tool of a call that is cut off is there and can read the arguments. -/
theorem CutsOff.called (h : r.CutsOff clock calls i) (hc : calls[i]? = some c) :
    ∃ tool args, r.get? c.name = some tool ∧ Json.parse c.arguments = .ok args := by
  obtain ⟨body, ha⟩ := h.admitted hc
  obtain ⟨tool, args, hname, hargs, -⟩ := admit_eq_ok_iff.1 ha
  exact ⟨tool, args, hname, hargs⟩

/-- How the call at a place ends, with its result and the mark of its record: the first of these
that applies. -/
inductive Ends (r : Registry) (clock : Clock) (calls : List ToolCall) (i : Nat) (c : ToolCall) :
    ToolResult → AuditMark → Prop
  | noTools : r.all = [] → Ends r clock calls i c ⟨c.id, "Error: " ++ "No tools are available.", true⟩ .error
  | unknown : r.all ≠ [] → r.get? c.name = none →
      Ends r clock calls i c ⟨c.id, "Error: " ++ ("The tool '" ++ c.name ++ "' is not available."), true⟩ .error
  | malformed {tool : Tool} {fault : Json.Fault} : r.get? c.name = some tool →
      Json.parse c.arguments = .error fault → Ends r clock calls i c
        ⟨c.id, "Error: " ++ ("Invalid arguments for tool '" ++ c.name ++ "': " ++ fault.message), true⟩ .error
  | cutOff {tool : Tool} {args : Json} : r.get? c.name = some tool → Json.parse c.arguments = .ok args →
      r.CutsOff clock calls i →
      Ends r clock calls i c ⟨c.id, "Error: " ++ ("Tool call '" ++ c.id ++ "' was cancelled"), true⟩ .cancelled
  | failed {tool : Tool} {args : Json} {message : String} : r.get? c.name = some tool →
      Json.parse c.arguments = .ok args → ¬ r.CutsOff clock calls i → r.Finishes clock calls i →
      (tool.body args).outcome = .failure message →
      Ends r clock calls i c ⟨c.id, "Error: " ++ message, true⟩ .error
  | panicked {tool : Tool} {args : Json} : r.get? c.name = some tool → Json.parse c.arguments = .ok args →
      ¬ r.CutsOff clock calls i → r.Finishes clock calls i → (tool.body args).outcome = .panic →
      Ends r clock calls i c ⟨c.id, "Error: " ++ ("Tool '" ++ c.name ++ "' panicked"), true⟩ .error
  | returned {tool : Tool} {args v : Json} : r.get? c.name = some tool → Json.parse c.arguments = .ok args →
      ¬ r.CutsOff clock calls i → r.Finishes clock calls i → (tool.body args).outcome = .value v →
      Ends r clock calls i c ⟨c.id, v.display, false⟩ .ok

theorem Fate.ends {v : Verdict} (h : r.Fate clock calls i c v) :
    r.Ends clock calls i c (c.resultOf v) (AuditMark.of v) := by
  cases h with
  | refused ha =>
    obtain ⟨hall, rfl⟩ | ⟨hall, hname, rfl⟩ | ⟨tool, fault, hname, hargs, rfl⟩ := admit_error ha
    · exact .noTools hall
    · exact .unknown hall hname
    · exact .malformed hname hargs
  | cutOff ha hcut =>
    obtain ⟨tool, args, hname, hargs, rfl⟩ := admit_eq_ok_iff.1 ha
    exact .cutOff hname hargs hcut
  | finished ha hcut hfinish =>
    obtain ⟨tool, args, hname, hargs, rfl⟩ := admit_eq_ok_iff.1 ha
    cases ho : (tool.body args).outcome with
    | value v => exact .returned hname hargs hcut hfinish ho
    | failure message => exact .failed hname hargs hcut hfinish ho
    | panic => exact .panicked hname hargs hcut hfinish ho

/-- A result that is no error is that of a call that has come to an end. -/
theorem execute_ends {result : ToolResult} (hc : calls[i]? = some c)
    (hr : (r.execute clock calls).results[i]? = some result) (hok : result.isError = false) :
    ∃ mark, r.Ends clock calls i c result mark := by
  rw [execute_results, List.getElem?_map] at hr
  obtain ⟨⟨c', p⟩, hi, rfl⟩ := Option.map_eq_some_iff.1 hr
  obtain rfl : c' = c := Option.some.inj ((ended_call hi).symm.trans hc)
  cases p with
  | settled v => exact ⟨_, (ended_fate hi).ends⟩
  | _ => cases hok

/-- The tool of a call ran to its end, and that was a failure or a panic. -/
def Fails (r : Registry) (clock : Clock) (calls : List ToolCall) (i : Nat) (c : ToolCall) : Prop :=
  ∃ tool args, r.get? c.name = some tool ∧ Json.parse c.arguments = .ok args ∧ r.Finishes clock calls i ∧
    ((∃ message, (tool.body args).outcome = .failure message) ∨ (tool.body args).outcome = .panic)

/-- The record of a call beside its result. -/
structure Tells (r : Registry) (clock : Clock) (calls : List ToolCall) (i : Nat) (a : Audit) (c : ToolCall)
    (result : ToolResult) : Prop where
  tool : a.tool = c.name
  callId : a.callId = c.id
  preview : a.argumentsPreview.toList = c.arguments.toList.take 200 ++
    if 200 < c.arguments.toList.length then "...".toList else []
  ends : r.Ends clock calls i c result a.mark
  ok : a.mark = .ok ↔ result.isError = false
  failed : a.mark = .cancelled ∨ a.mark = .error ↔ result.isError = true
  cancelled : a.mark = .cancelled ↔ r.CutsOff clock calls i
  error : result.isError = true ↔ r.all = [] ∨ r.get? c.name = none ∨
    (∃ fault, Json.parse c.arguments = .error fault) ∨ r.CutsOff clock calls i ∨ r.Fails clock calls i c
  words : result.isError = true → "Error: ".toList <+: result.content.toList

theorem preview_toList (arguments : String) : (preview arguments).toList = arguments.toList.take 200 ++
    if 200 < arguments.toList.length then "...".toList else [] := by
  simp only [preview]
  split
  · simp
  next h => rw [List.append_nil, List.take_of_length_le (Nat.le_of_not_lt h)]

section Ends

variable {result : ToolResult} {mark : AuditMark}

theorem Ends.cancelled_iff (h : r.Ends clock calls i c result mark) (hc : calls[i]? = some c) :
    mark = .cancelled ↔ r.CutsOff clock calls i := by
  cases h with
  | noTools hall =>
    refine iff_of_false nofun fun hcut => ?_
    obtain ⟨tool, args, hname, -⟩ := hcut.called hc
    rw [get?_of_empty hall] at hname
    cases hname
  | unknown hall hunknown =>
    refine iff_of_false nofun fun hcut => ?_
    obtain ⟨tool, args, hname, -⟩ := hcut.called hc
    rw [hunknown] at hname
    cases hname
  | malformed _ hfault =>
    refine iff_of_false nofun fun hcut => ?_
    obtain ⟨tool, args, -, hargs⟩ := hcut.called hc
    rw [hfault] at hargs
    cases hargs
  | cutOff _ _ hcut => exact iff_of_true rfl hcut
  | failed _ _ hcut => exact iff_of_false nofun hcut
  | panicked _ _ hcut => exact iff_of_false nofun hcut
  | returned _ _ hcut => exact iff_of_false nofun hcut

theorem Ends.error_iff (h : r.Ends clock calls i c result mark) : result.isError = true ↔ r.all = [] ∨
    r.get? c.name = none ∨ (∃ fault, Json.parse c.arguments = .error fault) ∨ r.CutsOff clock calls i ∨
      r.Fails clock calls i c := by
  cases h with
  | noTools hall => exact iff_of_true rfl (.inl hall)
  | unknown _ hname => exact iff_of_true rfl (.inr (.inl hname))
  | malformed _ hargs => exact iff_of_true rfl (.inr (.inr (.inl ⟨_, hargs⟩)))
  | cutOff _ _ hcut => exact iff_of_true rfl (.inr (.inr (.inr (.inl hcut))))
  | failed hname hargs _ hfinish ho =>
    exact iff_of_true rfl (.inr (.inr (.inr (.inr ⟨_, _, hname, hargs, hfinish, .inl ⟨_, ho⟩⟩))))
  | panicked hname hargs _ hfinish ho =>
    exact iff_of_true rfl (.inr (.inr (.inr (.inr ⟨_, _, hname, hargs, hfinish, .inr ho⟩))))
  | returned hname hargs hcut _ ho =>
    refine iff_of_false nofun ?_
    rintro (hall | hnone | ⟨fault, hfault⟩ | h | ⟨tool, args, hname', hargs', -, hfail⟩)
    · rw [get?_of_empty hall] at hname
      cases hname
    · rw [hnone] at hname
      cases hname
    · rw [hfault] at hargs
      cases hargs
    · exact hcut h
    · rw [hname] at hname'
      rw [hargs] at hargs'
      cases hname'
      cases hargs'
      simp [ho] at hfail

theorem Ends.words (h : r.Ends clock calls i c result mark) (herror : result.isError = true) :
    "Error: ".toList <+: result.content.toList := by
  cases h with
  | returned => cases herror
  | _ =>
    rw [String.toList_append]
    exact List.prefix_append _ _

end Ends

/-- What ends a call is told of it. -/
theorem Ends.tells {result : ToolResult} {a : Audit} (h : r.Ends clock calls i c result a.mark)
    (hc : calls[i]? = some c) (htool : a.tool = c.name) (hid : a.callId = c.id)
    (hpreview : a.argumentsPreview = ToolAgent.preview c.arguments) : r.Tells clock calls i a c result where
  tool := htool
  callId := hid
  preview := hpreview ▸ preview_toList _
  ends := h
  ok := by generalize a.mark = mark at h; cases h <;> simp
  failed := by generalize a.mark = mark at h; cases h <;> simp
  cancelled := h.cancelled_iff hc
  error := h.error_iff
  words := h.words

/-- **The audit log.** A batch that comes to an end has one record for each of its calls, in the order
in which they are settled: up to any moment, the log has the records of the calls that are settled by
then. What a record tells of its call agrees with the result that stands at the place of the call, and
both with what has ended the call. -/
theorem execute_audited (r : Registry) (clock : Clock) (calls : List ToolCall) {report : BatchReport}
    (h : r.execute? clock calls = some report) :
    ∃ places : List Nat, places.Perm (List.range calls.length) ∧
      List.Forall₂ (fun i a => ∃ c result, calls[i]? = some c ∧
        report.results[i]? = some result ∧ r.Tells clock calls i a c result) places report.audits ∧
      (∀ before after, before ++ after = r.looks clock calls → ∃ m, Batch.Passes r clock calls before m after) ∧
      ∀ before m after, Batch.Passes r clock calls before m after →
        ∃ k, before.flatMap (Look.audits r) = report.audits.take k ∧
          ∀ i, i ∈ places.take k ↔ ∃ c v, m.calls[i]? = some (c, .settled v) := by
  obtain ⟨hs, rfl⟩ := execute?_eq_some.1 h
  refine ⟨r.recordedPlaces clock calls, recordedPlaces_perm hs, ?_, fun _ _ => Batch.Passes.cut,
    fun _ _ _ => recordedPlaces_take⟩
  refine (r.audits_records clock calls).imp fun i a ha => ?_
  obtain ⟨c, v, hi, rfl⟩ := ha
  have hresult : (r.execute clock calls).results[i]? = some (c.resultOf v) := by
    rw [execute_results, List.getElem?_map, hi]
    rfl
  exact ⟨c, _, ended_call hi, hresult, (ended_fate hi).ends.tells (ended_call hi) rfl rfl rfl⟩

/-- The first call sleeps when the second cancels the token, so it is the last to be settled. -/
theorem stopper_audited :
    let calls : List ToolCall := [⟨"1", "slow", "null"⟩, ⟨"2", "stop", "null"⟩, ⟨"3", "gone", "null"⟩]
    let audits : List Audit := [⟨"stop", "2", .ok, "null"⟩, ⟨"gone", "3", .error, "null"⟩, ⟨"slow", "1", .cancelled, "null"⟩]
    ∃ report, stopper.execute? .start calls = some report ∧ report.audits = audits ∧
      ∃ places : List Nat, places.Perm [0, 1, 2] ∧
        List.Forall₂ (fun i a => ∃ c, calls[i]? = some c ∧ a.callId = c.id) places audits := by
  intro calls audits
  have h : stopper.execute? .start calls = some (stopper.execute .start calls) := rfl
  obtain ⟨places, hperm, htells, -⟩ := execute_audited stopper .start calls h
  refine ⟨_, h, rfl, places, hperm, htells.imp fun i a ha => ?_⟩
  obtain ⟨c, result, hc, -, ht⟩ := ha
  exact ⟨c, hc, ht.callId⟩

end Registry
end ToolAgent
