/-
Whole turns: what one leaves in the context, by the way it ends.

A turn is refused at once, or breaks off in memory, or takes a `Course`. With
memory that only appends, the context has grown by the inputs, by what memory put
behind them, and by what the course stores; nothing else of it has changed.
-/
import ToolAgent.Client.Replay
import ToolAgent.Proofs.Course
import ToolAgent.Proofs.Memory

namespace ToolAgent

variable {σ : Type}

/-- The model sees pictures, or there are none among the inputs. -/
def Capabilities.Sees (c : Capabilities) (inputs : List ChatMessage) : Prop :=
  c.vision = true ∨ ∀ m ∈ inputs, m.kind ≠ .multiModal

/-- The turn with its inputs stored. -/
def Turn.given (t : Turn σ) (inputs : List ChatMessage) : Turn σ :=
  { t with context := t.context.addAll (inputs.map ChatMessage.stored) }

namespace Agent

/-- All a turn can do. -/
inductive Goes (a : Agent) (client : Client σ) (inputs : List ChatMessage) (t : Turn σ) :
    Ending × Turn σ → Prop
  | refused : ¬ client.capabilities.Sees inputs → Goes a client inputs t (.error (.error .noVision), t)
  | forgot {stop t'} : client.capabilities.Sees inputs →
      a.augment a.memory (t.given inputs) = (.error stop, t') → Goes a client inputs t (.error stop, t')
  | answered {t₁ k t'} : client.capabilities.Sees inputs →
      a.augment a.memory (t.given inputs) = (.ok (), t₁) → a.Takes client t₁ k t' →
      Goes a client inputs t (.of (k.outcome a) t'.events, t')

theorem takeIn_eq (c : Capabilities) (inputs : List ChatMessage) (t : Turn σ) :
    (¬ c.Sees inputs ∧ takeIn c inputs t = (.error (.error .noVision), t)) ∨
      (c.Sees inputs ∧ takeIn c inputs t = (.ok (), t.given inputs)) := by
  unfold takeIn Capabilities.Sees
  split
  next h => exact .inl ⟨by simpa using h, rfl⟩
  next h =>
    refine .inr ⟨?_, rfl⟩
    cases hv : c.vision <;> simp_all

theorem takeIn_of_sees {c : Capabilities} {inputs : List ChatMessage} {t : Turn σ} (h : c.Sees inputs) :
    takeIn c inputs t = (.ok (), t.given inputs) := by
  rcases takeIn_eq c inputs t with ⟨hblind, -⟩ | ⟨-, ht⟩
  · exact absurd h hblind
  · exact ht

theorem turn_goes (a : Agent) (client : Client σ) (inputs : List ChatMessage) (t : Turn σ) :
    a.Goes client inputs t (a.turn client inputs t) := by
  unfold turn
  rcases takeIn_eq client.capabilities inputs t with ⟨hs, ht⟩ | ⟨hs, ht⟩
  · simp only [ht]; exact .refused hs
  · simp only [ht]
    match hm : a.augment a.memory (t.given inputs) with
    | (.error stop, t') => exact .forgot hs hm
    | (.ok (), t₁) =>
      obtain ⟨k, hk, he⟩ := a.answer_takes client t₁
      have := Goes.answered hs hm hk
      rw [← he] at this
      exact this

/-- A turn that breaks off early asks nothing and leaves the client alone. Any other takes a course,
and asks nothing before. -/
theorem Goes.course {a : Agent} {client : Client σ} {inputs : List ChatMessage} {t : Turn σ}
    {ended : Ending × Turn σ} (h : a.Goes client inputs t ended) (ht : t.inquiries = []) :
    (∃ stop, (stop = .error .noVision ∨ stop.OfMemory) ∧ ended.1 = .error stop ∧
      ended.2.inquiries = [] ∧ ended.2.client = t.client) ∨
    ∃ t₁ k, t₁.inquiries = [] ∧ t₁.client = t.client ∧ a.Takes client t₁ k ended.2 ∧
      ended.1 = .of (k.outcome a) ended.2.events := by
  have hi := (a.augment_inquiries a.memory (t.given inputs)).trans ht
  have hc := a.augment_client a.memory (t.given inputs)
  cases h with
  | refused _ => exact .inl ⟨_, .inl rfl, rfl, ht, rfl⟩
  | forgot _ hm =>
    rw [hm] at hi hc
    exact .inl ⟨_, .inr (augment_stop hm), rfl, hi, hc⟩
  | answered _ hm hk =>
    rw [hm] at hi hc
    exact .inr ⟨_, _, hi, hc, hk, rfl⟩

theorem stored_isNote (inputs : List ChatMessage) :
    ∀ m ∈ inputs.map ChatMessage.stored, m.isNote = true := by
  simp [ChatMessage.stored, Message.isNote]

/-- Before the first inference come only messages of the system and of users. -/
theorem given_notes (a : Agent) (inputs : List ChatMessage) (t : Turn σ) (h : ∀ p ∈ a.memory, p.AddsNotes) :
    ∃ notes, (∀ m ∈ notes, m.isNote = true) ∧
      (a.augment a.memory (t.given inputs)).2.context = t.context.addAll notes := by
  refine ⟨inputs.map ChatMessage.stored ++ injections a.memory (t.given inputs).context t.clock, ?_, ?_⟩
  · intro m hm
    rcases List.mem_append.1 hm with hi | hr
    · exact stored_isNote inputs m hi
    · exact injections_notes _ _ h m hr
  · rw [augment_context _ fun p hp => (h p hp).appends, ← Context.addAll_addAll]
    rfl

/-- **What a turn leaves behind**, by the way it ends. Refused for pictures, it leaves
the context as it was. Broken off in memory, it has stored its inputs and what memory
put behind them until then. Else it takes a course, and has stored what the course
stores as well (`Course.stored`). -/
theorem turn_appends (a : Agent) (client : Client σ) (inputs : List ChatMessage) (t : Turn σ)
    (h : ∀ p ∈ a.memory, p.Appends) :
    let given := t.context.addAll (inputs.map ChatMessage.stored)
    let recalled := injections a.memory given t.clock
    let ended := a.turn client inputs t
    (¬ client.capabilities.Sees inputs ∧ ended.1 = .error (.error .noVision) ∧
      ended.2.context = t.context) ∨
    (client.capabilities.Sees inputs ∧ ∃ stop, stop.OfMemory ∧
      (a.augment a.memory (t.given inputs)).1 = .error stop ∧ ended.1 = .error stop ∧
      ended.2.context = given.addAll recalled) ∨
    (client.capabilities.Sees inputs ∧ ∃ t₁ k,
      a.augment a.memory (t.given inputs) = (.ok (), t₁) ∧ t₁.context = given.addAll recalled ∧
      a.Takes client t₁ k ended.2 ∧ ended.1 = .of (k.outcome a) ended.2.events ∧
      ended.2.context = given.addAll (recalled ++ k.stored a)) := by
  intro given recalled ended
  have hm : (a.augment a.memory (t.given inputs)).2.context = given.addAll recalled :=
    augment_context _ h
  have hg : a.Goes client inputs t ended := a.turn_goes client inputs t
  clear_value ended
  cases hg with
  | refused hs => exact .inl ⟨hs, rfl, rfl⟩
  | forgot hs ha =>
    rw [ha] at hm
    exact .inr (.inl ⟨hs, _, augment_stop ha, by rw [ha], rfl, hm⟩)
  | answered hs ha hk =>
    rw [ha] at hm
    refine .inr (.inr ⟨hs, _, _, ha, hm, hk, rfl, ?_⟩)
    rw [hk.context, hm, Context.addAll_addAll]

end Agent

/-- A model asks for a tool, and then answers. -/
def Replay.forecast : Replay :=
  .ofList [⟨.toolCalls [⟨"1", "look", "null"⟩], .none⟩, ⟨.text "Rain.", .none⟩]

namespace Agent

/-- An agent with a note on the weather, which asks again, and has no tools. -/
def forecaster : Agent where
  name := "forecaster"
  description := "Knows the weather."
  registry := .empty
  memory := [.scripted "notes" [.system "It rains."] false (.items [.ofText "It rains."])]
  systemMessage := some "Be brief."
  reflects := true
  template := Blueprint.usualTemplate
  opening := .unbounded

theorem forecaster_addsNotes : ∀ p ∈ forecaster.memory, p.AddsNotes := by
  simp only [forecaster, List.mem_singleton, forall_eq]
  exact Provider.scripted_addsNotes (by simp [Message.isNote])

theorem forecaster_appends : (∀ p ∈ forecaster.memory, p.Appends) ∧
    ∃ k, (forecaster.turn (Replay.client .usual) [.text "Weather?" "user" none]
      (.start .unbounded .forecast .start)).2.context.messages =
        [.user (.text "Weather?") "user", .system "It rains."] ++ Course.stored forecaster k := by
  have h : ∀ p ∈ forecaster.memory, p.Appends := fun p hp => (forecaster_addsNotes p hp).appends
  refine ⟨h, ?_⟩
  rcases turn_appends forecaster (Replay.client .usual) [.text "Weather?" "user" none]
    (.start .unbounded .forecast .start) h with
    ⟨-, he, -⟩ | ⟨-, stop, -, -, he, -⟩ | ⟨-, t₁, k, -, -, -, -, hc⟩
  · cases he
  · cases he
  · exact ⟨k, congrArg Context.messages hc⟩

end Agent
end ToolAgent
