/-
What memory does to a turn before its first inference.

`Agent.augment` passes the context from provider to provider, and stops at the
first that fails. Whatever the providers are, they change nothing but the
messages, the clock and the events. Providers that only append leave the context
with `injections` behind it: what each of them added, in their order, up to the
failure if there is one.
-/
import ToolAgent.Turn

namespace ToolAgent

variable {σ : Type}

/-- The provider keeps the messages that are there. -/
def Provider.Appends (p : Provider) : Prop := ∀ c clock, c.messages <+: (p.update c clock).1

/-- The provider keeps the messages that are there, and puts only messages of the system
or of users behind them. -/
def Provider.AddsNotes (p : Provider) : Prop :=
  ∀ c clock, ∃ notes, (p.update c clock).1 = c.messages ++ notes ∧ ∀ m ∈ notes, m.isNote = true

theorem Provider.AddsNotes.appends {p : Provider} (h : p.AddsNotes) : p.Appends := by
  intro c clock
  obtain ⟨notes, hn, -⟩ := h c clock
  exact ⟨notes, hn.symm⟩

theorem Provider.scripted_addsNotes {name : String} {additions : List Message} {answer : Recall}
    (h : ∀ m ∈ additions, m.isNote = true) : (scripted name additions false answer).AddsNotes :=
  fun _ _ => ⟨additions, rfl, h⟩

theorem Notebook.provider_addsNotes (m : Notebook) : m.provider.AddsNotes := by
  intro c clock
  simp only [Notebook.provider, Notebook.update]
  split
  · exact ⟨[], by simp⟩
  · split
    · exact ⟨[], by simp⟩
    · exact ⟨[.system _], rfl, by simp [Message.isNote]⟩

/-- What providers append to a context, one after the other, until one fails. -/
def injections : List Provider → Context → Clock → List Message
  | [], _, _ => []
  | p :: ps, c, clock =>
    let (messages, recalled, clock) := p.update c clock
    let added := messages.drop c.messages.length
    match recalled with
    | .items _ => added ++ injections ps { c with messages := messages } clock
    | .failure _ _ | .panic _ => added

theorem injections_notes : ∀ {ps : List Provider} (c : Context) (clock : Clock),
    (∀ p ∈ ps, p.AddsNotes) → ∀ m ∈ injections ps c clock, m.isNote = true
  | [], _, _, _ => by simp [injections]
  | p :: ps, c, clock, h => by
    obtain ⟨notes, ha, hn⟩ := h p (by simp) c clock
    match hu : p.update c clock with
    | (messages, recalled, clock') =>
      obtain rfl : messages = c.messages ++ notes := by simpa [hu] using ha
      simp only [injections, hu, List.drop_left]
      cases recalled with
      | items items =>
        have ih := injections_notes { c with messages := c.messages ++ notes } clock'
          fun q hq => h q (List.mem_cons_of_mem _ hq)
        simp only [List.mem_append]
        rintro m (hm | hm)
        · exact hn m hm
        · exact ih m hm
      | failure | panic => exact hn

/-- A breakdown of memory. -/
inductive Stop.OfMemory : Stop → Prop
  | failure {provider message} : OfMemory (.error (.memory provider message))
  | panic {payload} : OfMemory (.panic payload)

namespace Agent

variable {a : Agent}

/-- A provider, and then the others. -/
theorem augment_cons (a : Agent) (p : Provider) (ps : List Provider) (t : Turn σ) :
    a.augment (p :: ps) t =
      match a.augment [p] t with
      | (.error stop, t) => (.error stop, t)
      | (.ok (), t) => a.augment ps t := by
  match hu : p.update t.context t.clock with
  | (messages, recalled, clock) => cases recalled <;> simp [augment, hu]

theorem augment_stop : ∀ {ps : List Provider} {t t' : Turn σ} {stop : Stop},
    a.augment ps t = (.error stop, t') → stop.OfMemory
  | [], _, _, _, h => by cases h
  | p :: ps, t, t', stop, h => by
    match hu : p.update t.context t.clock with
    | (messages, recalled, clock) =>
      simp only [augment, hu] at h
      cases recalled with
      | items items => exact augment_stop h
      | failure provider message => cases h; exact .failure
      | panic payload => cases h; exact .panic

/-- Whatever its providers do, memory changes only the messages, the clock and the events. -/
theorem augment_frame : ∀ (ps : List Provider) (t : Turn σ), ∃ messages clock events,
    (a.augment ps t).2 =
      { t with context := { t.context with messages := messages }, clock := clock, events := events }
  | [], t => ⟨t.context.messages, t.clock, t.events, rfl⟩
  | p :: ps, t => by
    match hu : p.update t.context t.clock with
    | (messages, recalled, clock) =>
      simp only [augment, hu]
      cases recalled with
      | items items =>
        obtain ⟨ms, c, es, h⟩ := augment_frame ps (Turn.emitQuery
          { t with context := { t.context with messages := messages }, clock := clock } items a.name)
        refine ⟨ms, c, es, h.trans ?_⟩
        unfold Turn.emitQuery
        split <;> rfl
      | failure | panic => exact ⟨messages, clock, t.events, rfl⟩

theorem augment_window (ps : List Provider) (t : Turn σ) :
    (a.augment ps t).2.context.window = t.context.window := by
  obtain ⟨_, _, _, h⟩ := a.augment_frame ps t
  rw [h]

theorem augment_inquiries (ps : List Provider) (t : Turn σ) :
    (a.augment ps t).2.inquiries = t.inquiries := by
  obtain ⟨_, _, _, h⟩ := a.augment_frame ps t
  rw [h]

theorem augment_client (ps : List Provider) (t : Turn σ) : (a.augment ps t).2.client = t.client := by
  obtain ⟨_, _, _, h⟩ := a.augment_frame ps t
  rw [h]

theorem augment_context : ∀ {ps : List Provider} (t : Turn σ), (∀ p ∈ ps, p.Appends) →
    (a.augment ps t).2.context = t.context.addAll (injections ps t.context t.clock)
  | [], t, _ => by simp [augment, injections]
  | p :: ps, t, h => by
    obtain ⟨added, ha⟩ := h p (by simp) t.context t.clock
    match hu : p.update t.context t.clock with
    | (messages, recalled, clock) =>
      obtain rfl : t.context.messages ++ added = messages := by simpa [hu] using ha
      simp only [augment, injections, hu, List.drop_left]
      cases recalled with
      | items items =>
        have hps : ∀ q ∈ ps, q.Appends := fun q hq => h q (by simp [hq])
        rw [augment_context _ hps]
        simp [Context.addAll, List.append_assoc]
      | failure | panic => rfl

end Agent
end ToolAgent
