/-
What a turn adds to a conversation is paired: whichever way it ends, its results
stand behind its calls. Calls without results come only from a second inference
that asks for tools again, and then they are the last thing the turn stored.
-/
import ToolAgent.Proofs.Batch
import ToolAgent.Proofs.Transcript
import ToolAgent.Proofs.Turn

namespace ToolAgent

variable {σ : Type}

/-- The second inference of the turn asked for tools again. -/
def Ending.overreached : Ending → Bool
  | .error (.error (.reflectionRequestedTools _)) => true
  | _ => false

theorem Stop.OfMemory.not_overreached {stop : Stop} (h : stop.OfMemory) :
    Ending.overreached (.error stop) = false := by
  cases h <;> rfl

theorem Stop.OfClient.not_overreached {stop : Stop} (h : stop.OfClient) :
    Ending.overreached (.error stop) = false := by
  cases h <;> rfl

namespace Agent

variable {a : Agent} {client : Client σ} {t t' : Turn σ} {b : Round} {k : Course}

theorem Batches.callIds (h : a.Batches client t b t') :
    b.results.map (·.callId) = b.calls.map (·.id) := by
  obtain ⟨clock, hr⟩ := h.results
  rw [hr, a.registry.execute_callIds]

theorem Batches.answered (h : a.Batches client t b t') :
    (a.uttered (.toolCalls b.calls) b.usage).answeredBy (.toolResults b.results) = true := by
  simp [uttered, Message.answeredBy, h.callIds]

theorem uttered_paired (a : Agent) (content : Completion) (usage : Usage) : Paired [a.uttered content usage] :=
  .of_not_results (by simp [uttered, Message.isToolResults])

theorem Batches.paired (h : a.Batches client t b t') : Paired (a.exchange b) :=
  ⟨by simp [exchange, uttered, Message.isToolResults], .cons_cons (fun _ => h.answered) (.singleton _)⟩

theorem Takes.paired (h : a.Takes client t k t') : Paired (k.stored a) := by
  cases h with
  | unanswered _ => exact .nil
  | told _ => exact a.uttered_paired _ _
  | handedOver hb _ | summarised hb _ _ | unreflected hb _ _ _ => exact hb.paired
  | reflected hb _ _ _ | overreached hb _ _ _ => exact hb.paired.append (a.uttered_paired _ _)

theorem unansweredBehind_text (a : Agent) (before : List Message) (text : String) (usage : Usage) :
    unansweredBehind before [a.uttered (.text text) usage] = [] := by
  simp [unansweredBehind, Message.isOpen, uttered, Message.calls?]

/-- The calls of a batch are not open, whatever comes behind their results. -/
theorem Batches.unansweredBehind_exchange (h : a.Batches client t b t') (before rest : List Message) :
    unansweredBehind before (a.exchange b ++ rest) = unansweredBehind (before ++ a.exchange b) rest := by
  simp [exchange, unansweredBehind, Message.isOpen, h.answered, Message.calls?]

theorem Batches.unansweredBehind_self (h : a.Batches client t b t') (before : List Message) :
    unansweredBehind before (a.exchange b) = [] := by
  simpa [unansweredBehind] using h.unansweredBehind_exchange before []

/-- A course leaves calls open exactly when the second inference asks for tools again. -/
theorem Takes.unansweredBehind (h : a.Takes client t k t') (before : List Message) (es : List Event) :
    unansweredBehind before (k.stored a) =
      if (Ending.of (k.outcome a) es).overreached then [before ++ k.stored a] else [] := by
  cases h with
  | unanswered ha =>
    simp [Course.stored, Course.outcome, ToolAgent.unansweredBehind, ha.stop.not_overreached]
  | told _ => exact a.unansweredBehind_text before _ _
  | handedOver hb _ | summarised hb _ _ => exact hb.unansweredBehind_self before
  | unreflected hb _ _ ha =>
    simpa [Course.stored, Course.outcome, ha.stop.not_overreached] using hb.unansweredBehind_self before
  | reflected hb _ _ _ =>
    simp only [Course.stored, hb.unansweredBehind_exchange, unansweredBehind_text]
    rfl
  | overreached hb _ _ _ =>
    simp only [Course.stored, hb.unansweredBehind_exchange]
    simp [Course.outcome, Ending.overreached, ToolAgent.unansweredBehind, Message.isOpen, uttered,
      Message.calls?]

/-- What a turn adds, its ending and what that leaves open. -/
structure Adds (ending : Ending) (added : List Message) : Prop where
  paired : Paired added
  unanswered : ∀ before, ToolAgent.unansweredBehind before added =
    if ending.overreached then [before ++ added] else []
  last : ending.overreached = true → ∃ l calls source usage,
    added = l ++ [.assistant (.toolCalls calls) source usage] ∧
      ending = .error (.error (.reflectionRequestedTools calls.length))

theorem Adds.of_notes {ending : Ending} {notes : List Message} (h : ∀ m ∈ notes, m.isNote = true)
    (he : ending.overreached = false) : Adds ending notes where
  paired := .of_notes h
  unanswered before := by simp [unansweredBehind_notes h, he]
  last ho := by rw [he] at ho; cases ho

theorem Takes.adds (h : a.Takes client t k t') (es : List Event) :
    Adds (.of (k.outcome a) es) (k.stored a) where
  paired := h.paired
  unanswered before := h.unansweredBehind before es
  last ho := by
    cases h with
    | overreached => exact ⟨_, _, _, _, rfl, rfl⟩
    | unanswered ha | unreflected _ _ _ ha =>
      rw [Course.outcome, Ending.of_error, ha.stop.not_overreached] at ho
      cases ho
    | _ => cases ho

theorem Adds.behind {ending : Ending} {notes added : List Message} (h : Adds ending added)
    (hn : ∀ m ∈ notes, m.isNote = true) : Adds ending (notes ++ added) where
  paired := (Paired.of_notes hn).append h.paired
  unanswered before := by
    rw [unansweredBehind_append h.paired.start, unansweredBehind_notes hn, h.unanswered]
    simp
  last ho := by
    obtain ⟨l, calls, source, usage, rfl, he⟩ := h.last ho
    exact ⟨notes ++ l, calls, source, usage, by simp, he⟩

/-- However a turn ends, what it adds to the context is paired, and leaves calls open
only if the second inference asked for tools. -/
theorem turn_adds (a : Agent) (client : Client σ) (inputs : List ChatMessage) (t : Turn σ)
    (h : ∀ p ∈ a.memory, p.AddsNotes) :
    ∃ added, (a.turn client inputs t).2.context = t.context.addAll added ∧
      Adds (a.turn client inputs t).1 added := by
  obtain ⟨notes, hn, hm⟩ := a.given_notes inputs t h
  have hg := a.turn_goes client inputs t
  generalize a.turn client inputs t = ended at hg ⊢
  cases hg with
  | refused _ => exact ⟨[], by simp, .of_notes (by simp) rfl⟩
  | forgot _ ha =>
    rw [ha] at hm
    exact ⟨notes, hm, .of_notes hn (augment_stop ha).not_overreached⟩
  | answered _ ha hk =>
    rw [ha] at hm
    refine ⟨_, ?_, (hk.adds _).behind hn⟩
    rw [hk.context, hm, Context.addAll_addAll]

end Agent
end ToolAgent
