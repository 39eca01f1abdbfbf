/-
Conversations up to the ids of their calls.

What is `anonymous` has lost the ids by which calls and results are matched, and nothing
else. Whatever course a turn takes, what it stores, tells and ends with is made anonymous
with it. The parrot makes ids up but says nothing that depends on them, so its course in
an anonymous context is the anonymous course (`Parrot.course_anonymous`).
-/
import ToolAgent.Proofs.Client.Parrot
import ToolAgent.Proofs.Summary
import ToolAgent.Session

namespace ToolAgent

def ToolCall.anonymous (c : ToolCall) : ToolCall := { c with id := "" }

def ToolResult.anonymous (r : ToolResult) : ToolResult := { r with callId := "" }

def Completion.anonymous : Completion → Completion
  | .text words => .text words
  | .toolCalls calls => .toolCalls (calls.map ToolCall.anonymous)

def Message.anonymous : Message → Message
  | .assistant content source usage => .assistant content.anonymous source usage
  | .toolResults results => .toolResults (results.map ToolResult.anonymous)
  | m => m

def Transcript.anonymous (t : Transcript) : Transcript := ⟨t.messages.map Message.anonymous⟩

def Context.anonymous (c : Context) : Context := { c with messages := c.messages.map Message.anonymous }

def Event.anonymous : Event → Event
  | .memoryQuery items source => .memoryQuery items source
  | .toolCallRequest calls source usage => .toolCallRequest (calls.map ToolCall.anonymous) source usage
  | .toolCallExecution results source => .toolCallExecution (results.map ToolResult.anonymous) source

def Response.anonymous (r : Response) : Response :=
  { r with innerMessages := r.innerMessages.map Event.anonymous }

def Output.anonymous : Output → Output
  | .event e => .event e.anonymous
  | .response r => .response r.anonymous
  | .error e => .error e

def Round.anonymous (b : Round) : Round :=
  { b with calls := b.calls.map ToolCall.anonymous, results := b.results.map ToolResult.anonymous }

def Course.anonymous : Course → Course
  | .unanswered stop => .unanswered stop
  | .told words usage => .told words usage
  | .handedOver b h => .handedOver b.anonymous h
  | .summarised b => .summarised b.anonymous
  | .unreflected b stop => .unreflected b.anonymous stop
  | .reflected b words usage => .reflected b.anonymous words usage
  | .overreached b calls usage => .overreached b.anonymous (calls.map ToolCall.anonymous) usage

@[simp] theorem Message.anonymous_isToolResults (m : Message) :
    m.anonymous.isToolResults = m.isToolResults := by
  cases m <;> rfl

@[simp] theorem Message.anonymous_userText? (m : Message) : m.anonymous.userText? = m.userText? := by
  cases m <;> rfl

/-! ## Courses -/

/-- A summary does not tell ids. -/
theorem Summary.renderAll_anonymous (template : String) (calls : List ToolCall) (results : List ToolResult) :
    renderAll template (calls.map ToolCall.anonymous) (results.map ToolResult.anonymous) =
      renderAll template calls results := by
  have hfill : ∀ (c : ToolCall) (r : ToolResult), Piece.fill c.anonymous r.anonymous = Piece.fill c r := by
    intro c r
    funext p
    cases p with
    | fixed => rfl
    | slot s => cases s <;> rfl
  simp [renderAll, List.zip_map, Function.comp_def, render, fillIn_pieces, hfill]

namespace Course

variable (a : Agent) (k : Course)

theorem outcome_anonymous : k.anonymous.outcome a = k.outcome a := by
  cases k with
  | summarised b => simp [anonymous, Round.anonymous, outcome, Summary.renderAll_anonymous]
  | overreached b calls usage => simp [anonymous, outcome]
  | unanswered | told | handedOver | unreflected | reflected => rfl

theorem stored_anonymous : k.anonymous.stored a = (k.stored a).map Message.anonymous := by
  cases k <;> rfl

theorem events_anonymous : k.anonymous.events a = (k.events a).map Event.anonymous := by
  cases k <;> rfl

end Course

theorem Ending.output_anonymous (outcome : Except Stop ChatMessage) (es : List Event) :
    (Ending.of outcome es).output.anonymous = (Ending.of outcome (es.map Event.anonymous)).output := by
  cases outcome <;> rfl

/-! ## What is seen -/

namespace Context

theorem dropOrphan_anonymous (ms : List Message) :
    dropOrphan (ms.map Message.anonymous) = (dropOrphan ms).map Message.anonymous := by
  cases ms with
  | nil => rfl
  | cons m ms =>
    rw [List.map_cons, dropOrphan_cons, dropOrphan_cons, Message.anonymous_isToolResults]
    split <;> rfl

theorem visible_anonymous (c : Context) : c.anonymous.visible = c.visible.map Message.anonymous := by
  obtain ⟨ms, window⟩ := c
  cases window with
  | all => rfl
  | last size pos => simp [visible, anonymous, ← dropOrphan_anonymous]

theorem addAll_anonymous (c : Context) (ms : List Message) :
    (c.addAll ms).anonymous = c.anonymous.addAll (ms.map Message.anonymous) := by
  simp [addAll, anonymous]

end Context

theorem Agent.shown_anonymous (a : Agent) (c : Context) :
    a.systemMessages ++ c.anonymous.visible = (a.systemMessages ++ c.visible).map Message.anonymous := by
  have hsystem : a.systemMessages.map Message.anonymous = a.systemMessages := by
    unfold systemMessages
    cases a.systemMessage <;> rfl
  rw [List.map_append, hsystem, c.visible_anonymous]

/-! ## What the parrot says -/

namespace Parrot

theorem lastUserText_anonymous (ms : List Message) :
    lastUserText (ms.map Message.anonymous) = lastUserText ms := by
  simp [lastUserText, ← List.map_reverse, List.findSome?_map, Function.comp_def]

theorem reply_anonymous (ms : List Message) : reply (ms.map Message.anonymous) = reply ms := by
  unfold reply
  rw [List.getLast?_map, lastUserText_anonymous, List.length_map]
  cases ms.getLast? with
  | none => rfl
  | some m =>
    cases m with
    | toolResults results => simp [Message.anonymous, ToolResult.anonymous, Function.comp_def]
    | system | user | assistant => rfl

variable (a : Agent) (id text : String) (heard : Context)

theorem round_anonymous : (round a id text heard).anonymous = round a "" text heard.anonymous := by
  simp only [round, Round.anonymous, a.shown_anonymous, List.length_map]
  rfl

/-- The course does not depend on the ids there are, and passes its own on. -/
theorem course_anonymous : (course a id text heard).anonymous = course a "" text heard.anonymous := by
  have hround := round_anonymous a id text heard
  cases h : a.reflects with
  | false =>
    rw [course_summarised h, course_summarised h, ← hround]
    rfl
  | true =>
    have hexchange : a.exchange (round a "" text heard.anonymous) =
        (a.exchange (round a id text heard)).map Message.anonymous := by
      rw [← hround]
      rfl
    rw [course_reflected h, course_reflected h, hexchange, ← Context.addAll_anonymous, a.shown_anonymous,
      reply_anonymous, ← hround]
    rfl

end Parrot
end ToolAgent
