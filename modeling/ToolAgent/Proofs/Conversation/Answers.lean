/-
What the model says over whole runs.

The client is the same from turn to turn, whatever is done to the context in between: it has
replied to the requests of all turns, one after the other (`run_serves`). Where nothing takes
stored messages away, those of the model are the answers of all turns (`run_answers`).
-/
import ToolAgent.Proofs.Conversation
import ToolAgent.Proofs.Turn.Answers

namespace ToolAgent

variable {σ : Type}

/-- Takes turns, or saves: what is stored stays. -/
def Operation.isSteady : Operation → Bool
  | .turns .. | .save => true
  | _ => false

namespace Conversation

/-- All turns, in their order. -/
def turns (c : Conversation σ) : List (Ending × Turn σ) := (c.log.filterMap Entry.turn?).reverse

/-- The requests of all turns, in their order. -/
def inquiries (c : Conversation σ) : List Inquiry := c.turns.flatMap (·.2.inquiries)

@[simp] theorem turns_start (window : Window) (state : σ) : (start window state).turns = [] := rfl

@[simp] theorem inquiries_start (window : Window) (state : σ) : (start window state).inquiries = [] := rfl

@[simp] theorem turns_afterTurn (c : Conversation σ) (ended : Ending × Turn σ) :
    (c.afterTurn ended).turns = c.turns ++ [ended] := by
  simp [turns, afterTurn, Entry.turn?]

@[simp] theorem inquiries_afterTurn (c : Conversation σ) (ended : Ending × Turn σ) :
    (c.afterTurn ended).inquiries = c.inquiries ++ ended.2.inquiries := by
  simp [inquiries]

@[simp] theorem mem_turns {c : Conversation σ} {e : Ending × Turn σ} : e ∈ c.turns ↔ .turn e ∈ c.log := by
  simp only [turns, List.mem_reverse, List.mem_filterMap]
  constructor
  · rintro ⟨x, hx, he⟩
    cases x with
    | turn e' => cases he; exact hx
    | reset => cases he
  · exact fun h => ⟨_, h, rfl⟩

variable {a : Agent} {client : Client σ} {s : σ}

/-! ## The client -/

theorem serves_afterTurn {c : Conversation σ} (h : client.Serves s c.inquiries c.session.client)
    (now : Nat) (inputs : List ChatMessage) (token : Token) :
    let e := c.session.turn a client now inputs token
    client.Serves s (c.afterTurn e).inquiries (c.afterTurn e).session.client := by
  intro e
  have hturn : client.Serves c.session.client e.2.inquiries e.2.client :=
    (a.turn_goes client inputs (.start c.session.context c.session.client (token.clock now))).serves rfl
  rw [inquiries_afterTurn]
  exact h.append hturn

theorem serves_perform {c : Conversation σ} (h : client.Serves s c.inquiries c.session.client) (o : Operation) :
    client.Serves s (c.perform a client o).inquiries (c.perform a client o).session.client := by
  cases o with
  | turns memory now turns =>
    exact turns_induct (P := fun c => client.Serves s c.inquiries c.session.client)
      (fun c now inputs token hc => serves_afterTurn hc now inputs token) h
  | reset | save | load => exact h
  | restore | loadJson =>
    simp only [perform]
    split <;> exact h

/-- Whatever is done, the client has replied to the requests of the turns, and to no others. -/
theorem run_serves : ∀ (ops : List Operation) {c : Conversation σ},
    client.Serves s c.inquiries c.session.client →
      client.Serves s (c.run a client ops).inquiries (c.run a client ops).session.client
  | [], _, h => h
  | o :: ops, _, h => run_serves ops (serves_perform h o)

/-! ## The context -/

/-- What is stored of the model are its answers to the requests so far. -/
def StoresAnswers (a : Agent) (c : Conversation σ) : Prop :=
  c.context.messages.filter Message.isAnswer = (c.inquiries.filterMap (·.reply.answer?)).map a.kept

theorem StoresAnswers.start (a : Agent) (window : Window) (state : σ) : StoresAnswers a (start window state) := rfl

theorem StoresAnswers.afterTurn {c : Conversation σ} {memory : List Provider} (h : StoresAnswers a c) (now : Nat)
    (inputs : List ChatMessage) (token : Token) (hm : ∀ p ∈ memory, p.AddsNotes) :
    StoresAnswers a (c.afterTurn (c.session.turn { a with memory := memory } client now inputs token)) := by
  have hturn := (Agent.turn_goes { a with memory := memory } client inputs
    (.start c.session.context c.session.client (token.clock now))).answers rfl hm
  have hc : c.session.context.messages.filter Message.isAnswer =
      (c.inquiries.filterMap (·.reply.answer?)).map a.kept := h
  rw [StoresAnswers, afterTurn_messages, inquiries_afterTurn, List.filterMap_append, List.map_append, ← hc]
  exact hturn

theorem run_answers {ops : List Operation} {c : Conversation σ} (hops : ∀ o ∈ ops, o.AddsNotes ∧ o.isSteady = true)
    (hc : StoresAnswers a c) : StoresAnswers a (c.run a client ops) := by
  have hkeeps : ∀ o ∈ ops, o.isForeign = false ∧ o.isReset = false ∧ o.isRestore = false := by
    intro o ho
    have hs := (hops o ho).2
    cases o <;> first | exact ⟨rfl, rfl, rfl⟩ | cases hs
  refine run_induct (fun o ho => ⟨(hops o ho).1, (hkeeps o ho).1⟩) ?_ ?_ ?_ ?_ hc
  · intro c memory now inputs token hm h
    exact h.afterTurn now inputs token hm
  · rintro c ⟨o, ho, hr⟩ _
    rw [(hkeeps o ho).2.1] at hr
    cases hr
  · intro c h
    exact h
  · rintro c s _ ⟨o, ho, hr⟩ _
    rw [(hkeeps o ho).2.2] at hr
    cases hr

end Conversation
end ToolAgent
