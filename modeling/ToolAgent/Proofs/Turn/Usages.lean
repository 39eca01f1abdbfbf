/-
The tokens that a turn used.

The model tells them with each of its answers. What a response carries of them, in its events and
in its text, is what the answers of the turn took, in their order (`Course.usages`), and so is
what the messages stored for them carry.
-/
import ToolAgent.Proofs.Turn.Answers
import ToolAgent.Proofs.Turn.Records

namespace ToolAgent

variable {σ : Type}

def Event.usage? : Event → Option Usage
  | .toolCallRequest _ _ usage => usage
  | .memoryQuery _ _ | .toolCallExecution _ _ => none

def ChatMessage.usage? : ChatMessage → Option Usage
  | .text _ _ usage => usage
  | .multiModal _ _ | .toolCallSummary _ _ | .handoff _ _ _ => none

def Message.usage? : Message → Option Usage
  | .assistant _ _ usage => usage
  | .system _ | .user _ _ | .toolResults _ => none

/-- All tokens that a response tells of, in the order of its parts. -/
def Response.usages (r : Response) : List Usage :=
  r.innerMessages.filterMap Event.usage? ++ r.chatMessage.usage?.toList

/-- The tokens of each message of the model. -/
def answerUsages (ms : List Message) : List (Option Usage) := (ms.filter Message.isAnswer).map Message.usage?

theorem answerUsages_notes {notes ms : List Message} (h : ∀ m ∈ notes, m.isNote = true) :
    answerUsages (notes ++ ms) = answerUsages ms := by
  rw [answerUsages, List.filter_append, Message.no_answers_of_notes h]
  rfl

namespace Course

theorem answerUsages_stored (a : Agent) (k : Course) :
    answerUsages (k.stored a) = k.answers.map fun r => some r.usage := by
  rw [answerUsages, k.stored_answers, List.map_map]
  rfl

/-- However a course ends, its events and its text carry the tokens of its answers. -/
theorem usages {a : Agent} {k : Course} {m : ChatMessage} (h : k.outcome a = .ok m) :
    (k.events a).filterMap Event.usage? ++ m.usage?.toList = k.answers.map (·.usage) := by
  cases k with
  | unanswered | unreflected | overreached => cases h
  | told | handedOver | summarised | reflected => cases h; rfl

end Course

/-- What memory answers takes no tokens. -/
theorem Recall.no_usages (source : String) (rs : List Recall) :
    (rs.filterMap (Recall.query? source)).filterMap Event.usage? = [] := by
  rw [List.filterMap_filterMap, List.filterMap_eq_nil_iff]
  intro r _
  cases r with
  | items found => cases h : found.isEmpty <;> simp [query?, h, Event.usage?]
  | failure | panic => rfl

namespace Agent

variable {a : Agent} {client : Client σ} {inputs : List ChatMessage} {context : Context} {state : σ}
  {clock : Clock} {response : Response}

/-- **No tokens are lost, and none are counted twice.** A turn with a response has had a result for each
of its requests. The response tells the tokens of these results, in their order, and just these;
so do the messages of the model that are stored behind what memory left, and, if memory adds none
of its own, all those that the turn has added. -/
theorem turn_usages (h : (a.turn client inputs (.start context state clock)).1 = .ok response) :
    let t := Turn.start context state clock
    let ended := a.turn client inputs t
    let recalled := (a.augment a.memory (t.given inputs)).2
    ∃ results : List Inference, ended.2.inquiries.map (·.reply) = results.map .result ∧
      response.usages = results.map (·.usage) ∧
      (∃ stored, ended.2.context = recalled.context.addAll stored ∧
        answerUsages stored = response.usages.map some) ∧
      ((∀ p ∈ a.memory, p.AddsNotes) → ∃ added, ended.2.context = context.addAll added ∧
        answerUsages added = response.usages.map some) := by
  intro t ended recalled
  have hg : a.Goes client inputs t ended := a.turn_goes client inputs t
  have hmemory : recalled.events.filterMap Event.usage? = [] := by
    have hevents : recalled.events = _ := a.augment_events a.memory (t.given inputs)
    rw [hevents, List.filterMap_append, Recall.no_usages]
    rfl
  have hasked : recalled.inquiries = [] := a.augment_inquiries a.memory (t.given inputs)
  have hnotes := a.given_notes inputs t
  replace h : ended.1 = .ok response := h
  clear_value ended
  cases hg with
  | refused | forgot => cases h
  | @answered t₁ k t' _ hm hk =>
    obtain rfl : recalled = t₁ := congrArg Prod.snd hm
    cases ho : k.outcome a with
    | error stop => rw [ho] at h; cases h
    | ok m =>
      rw [ho] at h
      cases h
      obtain ⟨qs, hq, hresults⟩ := hk.results ho
      have husages : Response.usages ⟨m, t'.events⟩ = k.answers.map (·.usage) := by
        rw [Response.usages, hk.events, List.filterMap_append, hmemory, List.nil_append, Course.usages ho]
      have hstored : answerUsages (k.stored a) = (Response.usages ⟨m, t'.events⟩).map some := by
        rw [k.answerUsages_stored, husages, List.map_map]
        rfl
      refine ⟨k.answers, ?_, husages, ⟨k.stored a, hk.context, hstored⟩, fun hadds => ?_⟩
      · rw [hq, hasked, List.nil_append]
        exact hresults
      · obtain ⟨notes, hn, hc⟩ := hnotes hadds
        refine ⟨notes ++ k.stored a, ?_, (answerUsages_notes hn).trans hstored⟩
        have hrecalled : recalled.context = context.addAll notes := hc
        rw [hk.context, hrecalled, Context.addAll_addAll]

/-- A turn that reflects takes the tokens of two inferences. -/
theorem forecaster_usages :
    let replay : Replay := .ofList [⟨.toolCalls [⟨"1", "look", "null"⟩], ⟨5, 2⟩⟩, ⟨.text "Rain.", ⟨9, 1⟩⟩]
    ∃ response, (forecaster.turn (Replay.client .usual) [.text "Weather?" "user" none]
        (.start .unbounded replay .start)).1 = .ok response ∧ response.usages = [⟨5, 2⟩, ⟨9, 1⟩] := by
  intro replay
  refine ⟨_, rfl, ?_⟩
  have hturn : (forecaster.turn (Replay.client .usual) [.text "Weather?" "user" none]
      (.start .unbounded replay .start)).1 = .ok _ := rfl
  obtain ⟨results, hresults, husages, -⟩ := turn_usages hturn
  have hqueue : results = replay.queue := by
    refine List.map_injective_iff.2 (fun r r' hr => ?_) (hresults.symm.trans rfl)
    exact Reply.result.inj hr
  rw [husages, hqueue]
  rfl

end Agent
end ToolAgent
