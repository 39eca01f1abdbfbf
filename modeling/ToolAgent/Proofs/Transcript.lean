/-
Tool calls and their results in a conversation.

`Paired`: results stand only right behind the calls they answer. It survives
putting conversations end to end and cutting one before a message that holds no
results; so what a window shows of a paired conversation is paired, once results
at its start are dropped, although the calls they belong to are out of sight.

`unanswered`: the other direction, the calls that no results follow.
-/
import Mathlib.Data.List.Chain
import ToolAgent.Proofs.Window

namespace ToolAgent

/-- The message asks for tool calls, and the next one holds their results: as many,
with the same ids in the same order. -/
def Message.answeredBy : Message → Message → Bool
  | .assistant (.toolCalls calls) _ _, .toolResults results =>
    results.map (·.callId) = calls.map (·.id)
  | _, _ => false

/-- The tool calls a message asks for. -/
def Message.calls? : Message → Option (List ToolCall)
  | .assistant (.toolCalls calls) _ _ => some calls
  | _ => none

theorem Message.answeredBy_results {m : Message} {results : List ToolResult}
    (h : m.answeredBy (.toolResults results) = true) :
    ∃ calls source usage, m = .assistant (.toolCalls calls) source usage ∧
      results.map (·.callId) = calls.map (·.id) := by
  cases m with
  | assistant content source usage =>
    cases content with
    | toolCalls calls => exact ⟨calls, source, usage, rfl, by simpa [answeredBy] using h⟩
    | text => cases h
  | _ => cases h

theorem Message.not_answeredBy {m m' : Message} (h : m'.isToolResults = false) :
    m.answeredBy m' = false := by
  cases m' with
  | toolResults => cases h
  | _ => simp [answeredBy]

theorem Message.isToolResults_of_isNote {m : Message} (h : m.isNote = true) : m.isToolResults = false := by
  cases m <;> simp_all [Message.isNote, Message.isToolResults]

theorem Message.calls?_of_isNote {m : Message} (h : m.isNote = true) : m.calls? = none := by
  cases m <;> simp_all [Message.isNote, Message.calls?]

/-! ## Results behind their calls -/

/-- Every message of results stands right behind the calls it answers. -/
structure Paired (ms : List Message) : Prop where
  start : ∀ m ∈ ms.head?, m.isToolResults = false
  chain : ms.IsChain fun m m' => m'.isToolResults = true → m.answeredBy m' = true

theorem Paired.nil : Paired [] := ⟨by simp, .nil⟩

theorem Paired.append {l r : List Message} (hl : Paired l) (hr : Paired r) : Paired (l ++ r) := by
  refine ⟨fun m hm => ?_, hl.chain.append hr.chain fun m _ m' hm' h => ?_⟩
  · rw [List.head?_append] at hm
    cases l with
    | nil => exact hr.start m hm
    | cons x l => exact hl.start m hm
  · rw [hr.start m' hm'] at h
    cases h

theorem Paired.of_not_results {ms : List Message} (h : ∀ m ∈ ms, m.isToolResults = false) : Paired ms := by
  induction ms with
  | nil => exact .nil
  | cons m ms ih =>
    have hm : Paired [m] := ⟨by simpa using h m (by simp), .singleton m⟩
    exact hm.append (ih fun m' hm' => h m' (by simp [hm']))

theorem Paired.of_notes {ms : List Message} (h : ∀ m ∈ ms, m.isNote = true) : Paired ms :=
  .of_not_results fun m hm => Message.isToolResults_of_isNote (h m hm)

/-- What being paired says of a place with results. -/
theorem Paired.behind_calls {l r : List Message} {results : List ToolResult}
    (h : Paired (l ++ .toolResults results :: r)) :
    ∃ l' calls source usage, l = l' ++ [.assistant (.toolCalls calls) source usage] ∧
      results.map (·.callId) = calls.map (·.id) := by
  rcases List.eq_nil_or_concat l with rfl | ⟨l', m, rfl⟩
  · cases h.start _ rfl
  · have ha : m.answeredBy (.toolResults results) = true :=
      (List.isChain_append.1 h.chain).2.2 m (by simp) _ rfl rfl
    obtain ⟨calls, source, usage, rfl, hid⟩ := Message.answeredBy_results ha
    exact ⟨l', calls, source, usage, by simp, hid⟩

/-- Results at the start of a piece of a paired conversation are one message at most. -/
theorem Paired.dropOrphan_suffix {ms w : List Message} (h : Paired ms) (hw : w <:+ ms) :
    Paired (Context.dropOrphan w) := by
  have hc := h.chain.suffix hw
  cases w with
  | nil => exact .nil
  | cons m w =>
    rw [Context.dropOrphan_cons]
    split
    next hm =>
      -- Behind results stand no results, since those would answer them.
      refine ⟨fun m' hm' => ?_, hc.tail⟩
      by_contra hr
      have ha := hc.rel_head? hm' (by simpa using hr)
      cases m <;> simp_all [Message.answeredBy, Message.isToolResults]
    next hm => exact ⟨by simpa using hm, hc⟩

theorem Paired.visible {c : Context} (h : Paired c.messages) : Paired c.visible := by
  unfold Context.visible
  split
  · exact h
  · exact h.dropOrphan_suffix (List.drop_suffix _ _)

/-! ## Calls without results -/

/-- The message asks for tool calls, and what comes right behind it does not answer them. -/
def Message.isOpen (m : Message) (after : List Message) : Bool :=
  m.calls?.isSome && !after.head?.any m.answeredBy

/-- Calls that are not open have their results right behind them. -/
theorem Message.results_of_not_isOpen {calls source usage} {after : List Message}
    (h : isOpen (.assistant (.toolCalls calls) source usage) after = false) :
    ∃ results r, after = .toolResults results :: r ∧ results.map (·.callId) = calls.map (·.id) := by
  cases after with
  | nil => cases h
  | cons m r =>
    cases m with
    | toolResults results => exact ⟨results, r, rfl, by simpa [isOpen, calls?, answeredBy] using h⟩
    | _ => cases h

/-- For each call for tools that is not answered, the conversation up to it, with what
came before. -/
def unansweredBehind (before : List Message) : List Message → List (List Message)
  | [] => []
  | m :: ms =>
    (if m.isOpen ms then [before ++ [m]] else []) ++ unansweredBehind (before ++ [m]) ms

/-- For each call for tools that is not answered, the conversation up to it. -/
def unanswered (ms : List Message) : List (List Message) := unansweredBehind [] ms

theorem mem_unansweredBehind {up : List Message} : ∀ {before ms : List Message},
    up ∈ unansweredBehind before ms ↔
      ∃ l m r, ms = l ++ m :: r ∧ m.isOpen r = true ∧ up = before ++ l ++ [m]
  | _, [] => by simp [unansweredBehind]
  | before, m :: ms => by
    rw [unansweredBehind, List.mem_append, mem_unansweredBehind]
    constructor
    · rintro (h | ⟨l, x, r, rfl, ho, rfl⟩)
      · split at h
        next ho => exact ⟨[], m, ms, rfl, ho, by simpa using h⟩
        next => cases h
      · exact ⟨m :: l, x, r, rfl, ho, by simp⟩
    · rintro ⟨l, x, r, hs, ho, rfl⟩
      cases l with
      | nil =>
        obtain ⟨rfl, rfl⟩ := List.cons.inj hs
        exact .inl (by simp [ho])
      | cons y l =>
        obtain ⟨rfl, rfl⟩ := List.cons.inj hs
        exact .inr ⟨l, x, r, rfl, ho, by simp⟩

/-- What stands in `unanswered`, said by places. -/
theorem mem_unanswered {up ms : List Message} :
    up ∈ unanswered ms ↔ ∃ l m r, ms = l ++ m :: r ∧ m.isOpen r = true ∧ up = l ++ [m] := by
  simp [unanswered, mem_unansweredBehind]

theorem isOpen_append {m : Message} {l r : List Message} (hr : ∀ m ∈ r.head?, m.isToolResults = false) :
    m.isOpen (l ++ r) = m.isOpen l := by
  unfold Message.isOpen
  cases l with
  | cons x l => rfl
  | nil =>
    cases hh : r.head? with
    | none => simp [hh]
    | some x => simp [hh, Message.not_answeredBy (hr x hh)]

/-- Messages that do not start with results leave open what was open. -/
theorem unansweredBehind_append {r : List Message} (hr : ∀ m ∈ r.head?, m.isToolResults = false) :
    ∀ {before l : List Message}, unansweredBehind before (l ++ r) =
      unansweredBehind before l ++ unansweredBehind (before ++ l) r
  | before, [] => by simp [unansweredBehind]
  | before, m :: l => by
    rw [List.cons_append, unansweredBehind, isOpen_append hr, unansweredBehind_append hr,
      unansweredBehind, List.append_assoc, List.append_assoc, List.singleton_append]

theorem unanswered_append {l r : List Message} (hr : ∀ m ∈ r.head?, m.isToolResults = false) :
    unanswered (l ++ r) = unanswered l ++ unansweredBehind l r := by
  simp [unanswered, unansweredBehind_append hr]

theorem unansweredBehind_notes : ∀ {before ms : List Message}, (∀ m ∈ ms, m.isNote = true) →
    unansweredBehind before ms = []
  | _, [], _ => rfl
  | before, m :: ms, h => by
    have hm : m.calls? = none := Message.calls?_of_isNote (h m (by simp))
    rw [unansweredBehind, unansweredBehind_notes fun m' hm' => h m' (by simp [hm'])]
    simp [Message.isOpen, hm]

end ToolAgent
