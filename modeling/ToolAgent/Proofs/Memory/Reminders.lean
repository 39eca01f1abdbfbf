/-
What notebooks put in front of the model.

A notebook searches with the last thing a user said, and what it finds goes into a message of the
system. So the notebooks before it leave what it searches with as it was (`LastUser.addAll`), and each
finds what it would find alone. That is one step (`provider_update`); `augment_notebooks` has all of them.
-/
import Mathlib.Data.List.Forall2
import ToolAgent.Proofs.Turn

namespace ToolAgent

/-! ## The last message of a user -/

theorem Message.userText?_eq_none_iff {m : Message} :
    m.userText? = none ↔ ∀ content source, m ≠ .user content source := by
  cases m <;> simp [userText?]

namespace Context

/-- No message is from a user. -/
def Userless (c : Context) : Prop := ∀ content source, .user content source ∉ c.messages

/-- The last message of a user stands at a place, and this is its text. -/
def LastUser (c : Context) (place : Nat) (text : String) : Prop :=
  ∃ earlier content source later, c.messages = earlier ++ .user content source :: later ∧
    (∀ content source, .user content source ∉ later) ∧ earlier.length = place ∧ content.asText = text

theorem userless_iff {c : Context} : c.Userless ↔ c.lastUserText? = none := by
  simp only [lastUserText?, List.findSome?_eq_none_iff, List.mem_reverse, Message.userText?_eq_none_iff]
  exact ⟨fun h m hm content source he => h content source (he ▸ hm), fun h content source hm => h _ hm _ _ rfl⟩

theorem LastUser.lastUserText? {c : Context} {place : Nat} {text : String} (h : c.LastUser place text) :
    c.lastUserText? = some text := by
  obtain ⟨earlier, content, source, later, hc, hlater, -, rfl⟩ := h
  have hnone : later.reverse.findSome? Message.userText? = none :=
    userless_iff.1 (show Userless ⟨later, .all⟩ from hlater)
  simp [Context.lastUserText?, hc, hnone, List.findSome?_cons, Message.userText?]

theorem userless_or_lastUser (c : Context) : c.Userless ∨ ∃ place text, c.LastUser place text := by
  match h : c.lastUserText? with
  | none => exact .inl (userless_iff.2 h)
  | some text =>
    obtain ⟨later, m, earlier, hsplit, hm, hlater⟩ := List.findSome?_eq_some_iff.1 h
    match m with
    | .user content source =>
      refine .inr ⟨_, _, earlier.reverse, content, source, later.reverse, ?_, ?_, rfl, rfl⟩
      · simpa using congrArg List.reverse hsplit
      · intro content source hmem
        cases hlater _ (List.mem_reverse.1 hmem)
    | .system _ | .assistant .. | .toolResults _ => cases hm

/-- Messages of the system leave the user's last one where it is. -/
theorem LastUser.addAll {c : Context} {place : Nat} {text : String} {ms : List Message}
    (h : c.LastUser place text) (hms : ∀ content source, .user content source ∉ ms) :
    (c.addAll ms).LastUser place text := by
  obtain ⟨earlier, content, source, later, hc, hlater, hplace, htext⟩ := h
  refine ⟨earlier, content, source, later ++ ms, by simp [hc], fun content source hm => ?_, hplace, htext⟩
  rcases List.mem_append.1 hm with hm | hm
  · exact hlater _ _ hm
  · exact hms _ _ hm

/-- The last of the inputs is the last message of a user, whatever was said before. -/
theorem lastUser_stored (c : Context) (earlier : List ChatMessage) (m : ChatMessage) :
    (c.addAll ((earlier ++ [m]).map ChatMessage.stored)).LastUser
      (c.messages.length + earlier.length) m.contentText :=
  ⟨c.messages ++ earlier.map ChatMessage.stored, m.userContent, m.source, [], by simp [ChatMessage.stored],
    by simp, by simp, rfl⟩

end Context

/-! ## Reminders -/

/-- A message of the system that lists pieces of memory, one a line, numbered from 1. -/
def Message.Lists (m : Message) (items : List MemoryItem) : Prop :=
  ∃ lines, m = .system ("\n".intercalate ("Relevant memory content:" :: lines)) ∧
    lines.length = items.length ∧
    ∀ i item, items[i]? = some item → lines[i]? = some (toString (i + 1) ++ ". " ++ item.content)

namespace Notebook

/-- What a notebook puts into the context when it finds something. -/
def reminder (items : List MemoryItem) : Message :=
  .system ("Relevant memory content:\n" ++ numbered items)

theorem reminder_lists {items : List MemoryItem} (h : items ≠ []) : (reminder items).Lists items := by
  refine ⟨items.zipIdx.map fun x => toString (x.2 + 1) ++ ". " ++ x.1.content, ?_, by simp, ?_⟩
  · rw [String.intercalate_cons_of_ne_nil (by simpa using h)]
    rfl
  · intro i item hi
    simp [hi]

/-- The query recalls something. -/
def finds (m : Notebook) (query : String) : Bool := !(m.search query).isEmpty

/-- The reminders that notebooks add for a query: one for each that finds something, in their order. -/
def reminders (ms : List Notebook) (query : String) : List Message :=
  (ms.filter (·.finds query)).map fun m => reminder (m.search query)

theorem user_notMem_reminders (ms : List Notebook) (query : String) (content : UserContent) (source : String) :
    .user content source ∉ reminders ms query := by
  simp [reminders, reminder]

theorem reminders_list (ms : List Notebook) (query : String) :
    List.Forall₂ (fun m message => message.Lists (m.search query)) (ms.filter (·.finds query))
      (reminders ms query) := by
  rw [reminders, List.forall₂_map_right_iff, List.forall₂_same]
  intro m hm
  have hfinds := (List.mem_filter.1 hm).2
  exact reminder_lists (by simpa [finds] using hfinds)

theorem provider_update {m : Notebook} {c : Context} {query : String} (h : c.lastUserText? = some query)
    (clock : Clock) :
    m.provider.update c clock = (c.messages ++ reminders [m] query, .items (m.search query), clock) := by
  simp only [provider, update, h]
  cases hm : m.search query with
  | nil => simp [reminders, finds, hm]
  | cons => simp [reminders, finds, hm, reminder, Context.add]

theorem provider_update_userless {m : Notebook} {c : Context} (h : c.lastUserText? = none) (clock : Clock) :
    m.provider.update c clock = (c.messages, .items [], clock) := by
  simp [provider, update, h]

end Notebook

/-! ## Turns -/

variable {σ : Type}

namespace Agent

open Notebook

theorem augment_userless (a : Agent) {t : Turn σ} (h : t.context.lastUserText? = none) :
    ∀ ms : List Notebook, a.augment (ms.map provider) t = (.ok (), t)
  | [] => rfl
  | m :: ms => by
    simp only [List.map_cons, augment, provider_update_userless h]
    exact augment_userless a h ms

/-- Every notebook finds what it finds with the words the user said last before the first of them. -/
theorem augment_notebooks (a : Agent) {place : Nat} {query : String} : ∀ (ms : List Notebook) (t : Turn σ),
    t.context.LastUser place query →
    a.augment (ms.map provider) t = (.ok (), { t with
      context := t.context.addAll (reminders ms query)
      events := t.events ++ (ms.filter (·.finds query)).map fun m => .memoryQuery (m.search query) a.name })
  | [], t, _ => by simp [augment, reminders]
  | m :: ms, t, h => by
    have hnext := h.addAll (user_notMem_reminders [m] query)
    simp only [List.map_cons, augment, provider_update h.lastUserText?]
    rw [augment_notebooks a ms _ (by rw [Turn.emitQuery_context]; exact hnext)]
    cases hm : m.finds query with
    | false =>
      have hnil : m.search query = [] := by simpa [finds] using hm
      simp [Turn.emitQuery, Context.addAll, reminders, hm, hnil]
    | true =>
      have hcons : m.search query ≠ [] := by simpa [finds] using hm
      simp [Turn.emitQuery, Turn.emit, Context.addAll, reminders, hm, hcons]

theorem turn_eq_answer {a : Agent} {client : Client σ} {inputs : List ChatMessage} {t t' : Turn σ}
    (hs : client.capabilities.Sees inputs) (h : a.augment a.memory (t.given inputs) = (.ok (), t')) :
    a.turn client inputs t = a.answer client t' := by
  simp only [turn, takeIn_of_sees hs, h]

/-- **Notebooks remind the model of what the user's last message recalls.** They never make a turn break
off. Where no user has said anything they do nothing. Else each of them searches with the text of one
message, the last of a user once the inputs are stored, which no reminder moves; each that finds something
adds one message of the system with what it found, and tells of it. -/
theorem turn_reminds (a : Agent) (client : Client σ) (inputs : List ChatMessage) (t : Turn σ)
    {ms : List Notebook} (hmemory : a.memory = ms.map Notebook.provider)
    (hsees : client.capabilities.Sees inputs) :
    let given := t.given inputs
    let recalled := a.augment a.memory given
    recalled.1 = .ok () ∧
    a.turn client inputs t = a.answer client recalled.2 ∧
    (∀ earlier m, inputs = earlier ++ [m] →
      given.context.LastUser (t.context.messages.length + earlier.length) m.contentText) ∧
    (given.context.Userless ∧ recalled.2 = given ∨
      ∃ place query, given.context.LastUser place query ∧
        (∀ before m after, ms = before ++ m :: after →
          let met := (a.augment (before.map Notebook.provider) given).2
          met.context.LastUser place query ∧
          (m.provider.update met.context met.clock).2.1 = .items (m.search query)) ∧
        ∃ added,
          List.Forall₂ (fun m message => message.Lists (m.search query)) (ms.filter (·.finds query)) added ∧
          recalled.2 = { given with
            context := given.context.addAll added
            events := given.events ++
              (ms.filter (·.finds query)).map fun m => .memoryQuery (m.search query) a.name }) := by
  intro given recalled
  have hlast : ∀ earlier m, inputs = earlier ++ [m] →
      given.context.LastUser (t.context.messages.length + earlier.length) m.contentText := by
    rintro earlier m rfl
    exact t.context.lastUser_stored earlier m
  rcases given.context.userless_or_lastUser with hnone | ⟨place, query, hquery⟩
  · have hrecalled : recalled = (.ok (), given) := by
      simp only [recalled, hmemory]
      exact augment_userless a (Context.userless_iff.1 hnone) ms
    refine ⟨congrArg Prod.fst hrecalled, ?_, hlast, .inl ⟨hnone, congrArg Prod.snd hrecalled⟩⟩
    rw [turn_eq_answer hsees hrecalled, hrecalled]
  · have hrecalled := augment_notebooks a ms given hquery
    rw [← hmemory] at hrecalled
    refine ⟨congrArg Prod.fst hrecalled, ?_, hlast, .inr ⟨place, query, hquery, ?_, _, reminders_list ms query,
      congrArg Prod.snd hrecalled⟩⟩
    · rw [turn_eq_answer hsees hrecalled]
      exact congrArg (a.answer client) (congrArg Prod.snd hrecalled).symm
    · intro before m after _ met
      have hmet : met.context.LastUser place query := by
        simp only [met, augment_notebooks a before given hquery]
        exact hquery.addAll (user_notMem_reminders before query)
      exact ⟨hmet, congrArg (·.2.1) (provider_update hmet.lastUserText? met.clock)⟩

end Agent

/-- What some people like. -/
def Notebook.likes : Notebook := (new "likes" 3).addAll [.ofText "Ann likes rain.", .ofText "Bob likes snow."]

/-- Shares words with every reminder. -/
def Notebook.headings : Notebook := (new "headings" 3).add (.ofText "Relevant memory")

namespace Agent

/-- An agent with two notebooks. -/
def librarian : Agent :=
  { forecaster with
    name := "librarian"
    memory := [.likes, .headings].map Notebook.provider }

/-- The second notebook does not search with the reminder of the first. -/
theorem librarian_reminds :
    let recalled := librarian.augment librarian.memory
      ((Turn.start .unbounded Replay.forecast .start).given [.text "Will it rain?" "user" none])
    ∃ reminder items, recalled.2.context.messages = [.user (.text "Will it rain?") "user", reminder] ∧
      reminder.Lists items ∧ items.map (·.content) = ["Ann likes rain."] ∧
      recalled.2.events = [.memoryQuery items "librarian"] := by
  intro recalled
  obtain ⟨-, -, -, h⟩ := turn_reminds librarian (Replay.client .usual) [.text "Will it rain?" "user" none]
    (.start .unbounded .forecast .start) rfl (.inr (by simp [ChatMessage.kind]))
  obtain ⟨hnone, -⟩ | ⟨place, query, hquery, -, added, hadded, hrecalled⟩ := h
  · exact absurd (.head _) (hnone (.text "Will it rain?") "user")
  · obtain rfl : "Will it rain?" = query := Option.some.inj hquery.lastUserText?
    have hlikes : Notebook.likes.finds "Will it rain?" = true := by decide +kernel
    have hheadings : Notebook.headings.finds "Will it rain?" = false := by decide +kernel
    simp only [List.filter_cons, hlikes, hheadings, if_true, Bool.false_eq_true, if_false, List.filter_nil]
      at hadded hrecalled
    obtain ⟨⟩ | ⟨hlists, ⟨⟩⟩ := hadded
    exact ⟨_, _, congrArg (·.context.messages) hrecalled, hlists, by decide +kernel,
      congrArg Turn.events hrecalled⟩

end Agent
end ToolAgent
