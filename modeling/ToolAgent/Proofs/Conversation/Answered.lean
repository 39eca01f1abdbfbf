/-
Calls and results over whole runs: in what a conversation stores, results stand
only behind the calls they answer, and a call without results was left there by a
turn whose second inference asked for tools again.

The invariant (`Sound`) speaks of the stored messages and of every saved state, since
a saved state may come back after turns and resets that it does not know of. It
holds because a turn adds whole exchanges (`Agent.turn_adds`), whatever the turn
before it left behind.
-/
import ToolAgent.Proofs.Conversation
import ToolAgent.Proofs.Pairing

namespace ToolAgent.Conversation

variable {σ : Type}

/-- The last message asks for tools, and a turn of the log ended with it, since it came from
its second inference. -/
def Overreached (log : List (Entry σ)) (up : List Message) : Prop :=
  ∃ e, .turn e ∈ log ∧ e.2.context.messages = up ∧ ∃ l calls source usage,
    up = l ++ [.assistant (.toolCalls calls) source usage] ∧
      e.1 = .error (.error (.reflectionRequestedTools calls.length))

theorem Overreached.cons {log : List (Entry σ)} {up : List Message} (h : Overreached log up)
    (e : Entry σ) : Overreached (e :: log) up := by
  obtain ⟨x, hx, h⟩ := h
  exact ⟨x, List.mem_cons_of_mem _ hx, h⟩

/-- Results follow their calls, and calls without results come from such turns. -/
structure Kept (log : List (Entry σ)) (ms : List Message) : Prop where
  paired : Paired ms
  traced : ∀ up ∈ unanswered ms, Overreached log up

theorem Kept.nil {log : List (Entry σ)} : Kept log [] := ⟨.nil, by simp [unanswered, unansweredBehind]⟩

theorem Kept.cons {log : List (Entry σ)} {ms : List Message} (h : Kept log ms) (e : Entry σ) :
    Kept (e :: log) ms :=
  ⟨h.paired, fun up hu => (h.traced up hu).cons e⟩

theorem Kept.turn {log : List (Entry σ)} {ms added : List Message} {e : Ending × Turn σ} (h : Kept log ms)
    (ha : Agent.Adds e.1 added) (he : e.2.context.messages = ms ++ added) :
    Kept (.turn e :: log) e.2.context.messages := by
  rw [he]
  refine ⟨h.paired.append ha.paired, fun up hu => ?_⟩
  rw [unanswered_append ha.paired.start, ha.unanswered, List.mem_append] at hu
  rcases hu with hu | hu
  · exact (h.traced up hu).cons _
  · split at hu
    next ho =>
      obtain rfl := List.mem_singleton.1 hu
      obtain ⟨l, calls, source, usage, rfl, hc⟩ := ha.last ho
      exact ⟨e, List.mem_cons_self, he, ms ++ l, calls, source, usage, by simp, hc⟩
    next => cases hu

/-- The invariant of runs: of what is stored and of all that is saved. -/
structure Sound (c : Conversation σ) : Prop where
  stored : Kept c.log c.context.messages
  saved : ∀ s ∈ c.saved, Kept c.log s.transcript.messages

variable {a : Agent} {client : Client σ}

/-- What a turn of the session leaves in it. -/
theorem turn_context (a : Agent) (client : Client σ) (c : Conversation σ) {memory : List Provider}
    (now : Nat) (inputs : List ChatMessage) (token : Token) (h : ∀ p ∈ memory, p.AddsNotes) :
    let e := c.session.turn { a with memory := memory } client now inputs token
    ∃ added, e.2.context = c.context.addAll added ∧ Agent.Adds e.1 added :=
  Agent.turn_adds { a with memory := memory } client inputs
    (.start c.session.context c.session.client (token.clock now)) h

theorem Sound.start (window : Window) (state : σ) : (start window state).Sound :=
  ⟨.nil, by simp [Conversation.start]⟩

theorem Sound.afterTurn {c : Conversation σ} {memory : List Provider} (hc : c.Sound) (now : Nat)
    (inputs : List ChatMessage) (token : Token) (hm : ∀ p ∈ memory, p.AddsNotes) :
    (c.afterTurn (c.session.turn { a with memory := memory } client now inputs token)).Sound := by
  obtain ⟨added, he, ha⟩ := turn_context a client c now inputs token hm
  exact ⟨hc.stored.turn ha (congrArg Context.messages he), fun s hs => (hc.saved s hs).cons _⟩

theorem Sound.afterReset {c : Conversation σ} (hc : c.Sound) : c.afterReset.Sound :=
  ⟨.nil, fun s hs => (hc.saved s hs).cons _⟩

theorem Sound.afterSave {c : Conversation σ} (hc : c.Sound) : c.afterSave.Sound := by
  refine ⟨hc.stored, fun s hs => ?_⟩
  rcases List.mem_cons.1 hs with rfl | hs
  · exact hc.stored
  · exact hc.saved s hs

theorem Sound.restore {c : Conversation σ} {s : SavedState} (hc : c.Sound) (hs : s ∈ c.saved) :
    (c.withContext (c.context.load s.transcript)).Sound :=
  ⟨hc.saved s hs, hc.saved⟩

theorem run_sound {ops : List Operation} {c : Conversation σ}
    (hops : ∀ o ∈ ops, o.AddsNotes ∧ o.isForeign = false) (hc : c.Sound) : (c.run a client ops).Sound := by
  refine run_induct hops ?_ ?_ ?_ ?_ hc
  · intro c memory now inputs token hm h
    exact h.afterTurn now inputs token hm
  · intro c _ h
    exact h.afterReset
  · intro c h
    exact h.afterSave
  · intro c s hs _ h
    exact h.restore hs

/-- Without loading, the calls that are open are counted by the turns that left them. -/
theorem run_count {ops : List Operation} {c : Conversation σ}
    (hops : ∀ o ∈ ops, o.AddsNotes ∧ o.isForeign = false) (hr : ∀ o ∈ ops, o.isRestore = false)
    (hc : (unanswered c.context.messages).length = c.sinceReset.countP (·.1.overreached)) :
    (unanswered (c.run a client ops).context.messages).length =
      (c.run a client ops).sinceReset.countP (·.1.overreached) := by
  refine run_induct (P := fun c => (unanswered c.context.messages).length =
    c.sinceReset.countP (·.1.overreached)) hops ?_ ?_ ?_ ?_ hc
  · intro c memory now inputs token hm h
    -- Either side grows by one exactly if the turn overreached.
    obtain ⟨added, he, ha⟩ := turn_context a client c now inputs token hm
    rw [afterTurn_messages, he, Context.addAll_messages, unanswered_append ha.paired.start, ha.unanswered, List.length_append, h,
      sinceReset_afterTurn, List.countP_cons]
    split <;> rfl
  · intro c _ _
    rfl
  · intro c h
    exact h
  · intro c s _ ⟨o, ho, hs⟩ _
    rw [hr o ho] at hs
    cases hs

/-- **Calls and results in a run.** Whatever turns, resets, savings and loadings of own states
have been, results stand right behind the calls they answer, one for one. Calls whose results do
not stand right behind them were left there by a turn whose second inference asked for tools. If
nothing has been loaded, there are as many of them as such turns since the last reset. -/
theorem run_answers_calls (a : Agent) (client : Client σ) (window : Window) (state : σ)
    (ops : List Operation) (hops : ∀ o ∈ ops, o.AddsNotes ∧ o.isForeign = false) :
    let c := (start window state).run a client ops
    (∀ l results r, c.context.messages = l ++ .toolResults results :: r →
      ∃ l' calls source usage, l = l' ++ [.assistant (.toolCalls calls) source usage] ∧
        results.map (·.callId) = calls.map (·.id)) ∧
    (∀ l calls source usage r,
      c.context.messages = l ++ .assistant (.toolCalls calls) source usage :: r →
        (∃ results r', r = .toolResults results :: r' ∧ results.map (·.callId) = calls.map (·.id)) ∨
        (∃ e, .turn e ∈ c.log ∧
          e.2.context.messages = l ++ [.assistant (.toolCalls calls) source usage] ∧
          e.1 = .error (.error (.reflectionRequestedTools calls.length)))) ∧
    ((∀ o ∈ ops, o.isRestore = false) →
      (unanswered c.context.messages).length = c.sinceReset.countP (·.1.overreached)) := by
  intro c
  have hs : c.Sound := run_sound hops (.start window state)
  refine ⟨fun l results r he => ?_, fun l calls source usage r he => ?_, fun hr => ?_⟩
  · have hp := hs.stored.paired
    rw [he] at hp
    exact hp.behind_calls
  · cases ho : Message.isOpen (.assistant (.toolCalls calls) source usage) r with
    | false => exact .inl (Message.results_of_not_isOpen ho)
    | true =>
      obtain ⟨e, hm, hu, l', calls', source', usage', hl, hc⟩ :=
        hs.stored.traced _ (mem_unanswered.2 ⟨l, _, r, he, ho, rfl⟩)
      -- Both say what the last message is.
      obtain ⟨rfl, hlast⟩ := List.append_inj' hl rfl
      cases hlast
      exact .inr ⟨e, hm, hu, hc⟩
  · exact run_count hops hr rfl

/-- Asks for a tool whenever it is asked. -/
def insistent : Replay :=
  .ofList (List.replicate 2 ⟨.toolCalls [⟨"1", "look", "null"⟩], .none⟩)

theorem insistent_answers_calls :
    let ops : List Operation := [.turns Agent.forecaster.memory 0 [([.text "Weather?" "user" none], .never)]]
    let ops' : List Operation := ops ++ [.save, .reset, .restore 0]
    let c := (start .all insistent).run .forecaster (Replay.client .usual) ops
    let c' := (start .all insistent).run .forecaster (Replay.client .usual) ops'
    (∀ o ∈ ops', o.AddsNotes ∧ o.isForeign = false) ∧ (unanswered c.context.messages).length = 1 ∧
      ∃ e, .turn e ∈ c'.log ∧ e.2.context.messages = c'.context.messages := by
  intro ops ops' c c'
  have hops' : ∀ o ∈ ops', o.AddsNotes ∧ o.isForeign = false := by
    simpa [ops, ops', Operation.AddsNotes, Operation.isForeign] using Agent.forecaster_addsNotes
  have hops : ∀ o ∈ ops, o.AddsNotes ∧ o.isForeign = false :=
    fun o ho => hops' o (List.mem_append_left _ ho)
  obtain ⟨-, -, hcount⟩ := run_answers_calls .forecaster (Replay.client .usual) .all insistent ops hops
  obtain ⟨-, hopen, -⟩ := run_answers_calls .forecaster (Replay.client .usual) .all insistent ops' hops'
  refine ⟨hops', (hcount (by simp [ops, Operation.isRestore])).trans rfl, ?_⟩
  rcases hopen (c'.context.messages.take 4) _ _ _ [] rfl with ⟨results, r', hr, -⟩ | ⟨e, he, hm, -⟩
  · cases hr
  · exact ⟨e, he, hm⟩

end ToolAgent.Conversation
