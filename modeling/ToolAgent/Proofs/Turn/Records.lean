/-
The events of a turn: what they say, and who gets to see them.

They tell what memory answered (`recalls`), and then what the turn stored of its first
inference and of the batch for it (`Mirrors`). They are the same in the response, if there
is one, and in the channel of a turn that hands them out as they come, as long as someone
receives them. The turn itself is the same, whether or not there is a channel.
-/
import ToolAgent.Proofs.Transcript
import ToolAgent.Proofs.Turn.Breakdown
import ToolAgent.Proofs.Turn.Hanging
import ToolAgent.Turn.Feed

namespace ToolAgent

variable {σ : Type}

/-! ## What memory answered -/

/-- What providers answer, one after the other, up to the first that fails. -/
def recalls : List Provider → Context → Clock → List Recall
  | [], _, _ => []
  | p :: ps, c, clock =>
    let (messages, recalled, clock) := p.update c clock
    match recalled with
    | .items items => .items items :: recalls ps { c with messages := messages } clock
    | .failure _ _ | .panic _ => [recalled]

/-- The event for an answer, if there is anything in it. -/
def Recall.query? (source : String) : Recall → Option Event
  | .items found => if found.isEmpty then none else some (.memoryQuery found source)
  | .failure _ _ | .panic _ => none

theorem Turn.emitQuery_events (t : Turn σ) (items : List MemoryItem) (source : String) :
    (t.emitQuery items source).events = t.events ++ ((Recall.items items).query? source).toList := by
  unfold emitQuery
  split
  next h => simp [Recall.query?, h]
  next h => simp [Recall.query?, h, emit]

namespace Agent

theorem augment_events (a : Agent) : ∀ (ps : List Provider) (t : Turn σ),
    (a.augment ps t).2.events = t.events ++ (recalls ps t.context t.clock).filterMap (Recall.query? a.name)
  | [], t => (List.append_nil _).symm
  | p :: ps, t => by
    match hu : p.update t.context t.clock with
    | (messages, recalled, clock) =>
      cases recalled with
      | items items =>
        simp only [augment, recalls, hu]
        rw [a.augment_events ps, Turn.emitQuery_events, Turn.emitQuery_context, Turn.emitQuery_clock,
          List.append_assoc]
        cases h : (Recall.items items).query? a.name <;> simp [h]
      | failure | panic =>
        simp only [augment, recalls, hu]
        exact (List.append_nil _).symm

/-! ## What a course stores and tells -/

/-- The events of a turn that come behind memory tell what it stores there: the calls that the
first inference asked for, and their results, and nothing if it did not ask for any. -/
inductive Mirrors (a : Agent) (inquiries : List Inquiry) : List Message → List Event → Prop
  | quiet {stored} : (∀ m ∈ stored, m.calls? = none ∧ m.isToolResults = false) →
      Mirrors a inquiries stored []
  | batch {q calls usage results rest} : inquiries.head? = some q →
      q.reply = .result ⟨.toolCalls calls, usage⟩ → (∀ m ∈ rest, m.isToolResults = false) →
      Mirrors a inquiries
        ([.assistant (.toolCalls calls) a.name (some usage), .toolResults results] ++ rest)
        [.toolCallRequest calls a.name (some usage), .toolCallExecution results a.name]

variable {a : Agent} {client : Client σ} {t t' : Turn σ} {k : Course} {b : Round}

theorem Batches.mirrors {t₁ : Turn σ} (h : a.Batches client t b t₁) (ht : t.inquiries = []) (hg : t₁.Grows t')
    (rest : List Message) (hr : ∀ m ∈ rest, m.isToolResults = false) :
    a.Mirrors t'.inquiries (a.exchange b ++ rest)
      [.toolCallRequest b.calls a.name (some b.usage), .toolCallExecution b.results a.name] := by
  obtain ⟨q, hq, -, hreply, -⟩ := h.replied
  obtain ⟨more, hmore⟩ := hg.inquiries
  have hhead : t'.inquiries.head? = some q := by
    rw [← hmore, hq, ht]
    rfl
  exact .batch hhead hreply hr

/-- Whatever course a turn takes, its events tell what it stores. -/
theorem Takes.mirrors (h : a.Takes client t k t') (ht : t.inquiries = []) :
    a.Mirrors t'.inquiries (k.stored a) (k.events a) := by
  cases h with
  | unanswered _ => exact .quiet (by simp [Course.stored])
  | told _ => exact .quiet (by simp [Course.stored, uttered, Message.calls?, Message.isToolResults])
  | @handedOver b t₁ h more hb _ =>
    have hg : t₁.Grows (noteHandoffs (h :: more) t₁) :=
      .of_eq (noteHandoffs_events _ _) (noteHandoffs_inquiries _ _)
    exact hb.mirrors ht hg [] (by simp)
  | summarised hb _ _ => exact hb.mirrors ht (.refl _) [] (by simp)
  | unreflected hb _ _ ha => exact hb.mirrors ht ha.grows [] (by simp)
  | reflected hb _ _ ha => exact hb.mirrors ht ha.grows _ (by simp [uttered, Message.isToolResults])
  | overreached hb _ _ ha => exact hb.mirrors ht ha.grows _ (by simp [uttered, Message.isToolResults])

end Agent

/-! ## What the channel gets -/

namespace Feed

variable {a : Agent} {client : Client σ} {inputs : List ChatMessage} {t : Turn σ}

/-- What a channel holds by a moment of a turn: all that has been emitted, or what had been when
the receiver went away. -/
structure Carries (c : Channel) (events : List Event) : Prop where
  sent : c.sent <+: events
  all : c.abandoned = false → c.sent = events

theorem Carries.send {c : Channel} {events events' : List Event} (h : Carries c events)
    (he : events <+: events') : Carries (c.send (events'.drop events.length)) events' := by
  obtain ⟨more, rfl⟩ := he
  rw [List.drop_left]
  unfold Channel.send
  split
  next hc => exact ⟨h.sent.trans (List.prefix_append _ _), fun hc' => by rw [hc] at hc'; cases hc'⟩
  next hc =>
    have hs : c.sent = events := h.all (by simpa using hc)
    rw [hs]
    exact ⟨List.prefix_rfl, fun _ => rfl⟩

/-- The moves of a turn with a channel: it is where as many steps take it, and the channel carries
what has been emitted. -/
theorem run_moment (a : Agent) (client : Client σ) (inputs : List ChatMessage) (t : Turn σ) (ht : t.events = [])
    (moves : List Move) :
    let f := (start inputs t).run a client moves
    let now := a.moment client inputs t (moves.count .step)
    f.stage = now.1 ∧ f.turn = now.2 ∧ Carries f.channel f.turn.events ∧
      (f.channel.abandoned = true → .abandon ∈ moves) := by
  induction moves using List.reverseRecOn with
  | nil => exact ⟨rfl, rfl, ⟨by simp [run, start, Channel.empty], fun _ => ht.symm⟩, nofun⟩
  | append_singleton moves move ih =>
    obtain ⟨hs, hturn, hc, hm⟩ := ih
    have hrun : (start inputs t).run a client (moves ++ [move]) =
        ((start inputs t).run a client moves).perform a client move := List.foldl_append
    rw [hrun]
    generalize (start inputs t).run a client moves = f at hs hturn hc hm
    cases move with
    | step =>
      have hcount : (moves ++ [Move.step]).count .step = moves.count .step + 1 := by simp
      rw [hcount, Agent.moment_succ, ← hs, ← hturn]
      refine ⟨rfl, rfl, hc.send (a.step_grows client _ _).events, fun hab => ?_⟩
      have hab' : f.channel.abandoned = true := by
        simp only [perform, step, Channel.send] at hab
        split at hab <;> assumption
      exact List.mem_append_left _ (hm hab')
    | abandon =>
      have hcount : (moves ++ [Move.abandon]).count .step = moves.count .step := by simp
      rw [hcount]
      exact ⟨hs, hturn, ⟨hc.sent, nofun⟩, fun _ => by simp⟩

end Feed

/-! ## Whole turns -/

namespace Agent

variable {a : Agent} {client : Client σ} {inputs : List ChatMessage} {t : Turn σ} {ended : Ending × Turn σ}

/-- A turn that is not refused tells what memory answered, and then what it stores behind that. -/
theorem Goes.mirrors (h : a.Goes client inputs t ended) (hs : client.capabilities.Sees inputs)
    (ht : t.inquiries = []) :
    ∃ stored events,
      ended.2.context = (a.augment a.memory (t.given inputs)).2.context.addAll stored ∧
      ended.2.events = (a.augment a.memory (t.given inputs)).2.events ++ events ∧
      a.Mirrors ended.2.inquiries stored events ∧
      ∀ stop, (a.augment a.memory (t.given inputs)).1 = .error stop → stored = [] := by
  cases h with
  | refused hs' => exact absurd hs hs'
  | forgot _ hm =>
    rw [hm]
    exact ⟨[], [], (Context.addAll_nil _).symm, (List.append_nil _).symm, .quiet nofun, fun _ _ => rfl⟩
  | @answered t₁ k _ _ hm hk =>
    have hi : t₁.inquiries = [] := by
      have hmemory := a.augment_inquiries a.memory (t.given inputs)
      rw [hm] at hmemory
      exact hmemory.trans ht
    rw [hm]
    exact ⟨k.stored a, k.events a, hk.context, hk.events, hk.mirrors hi, nofun⟩

/-- **The records of a turn.** Refused, it has no events. Else they are first what memory answered, in
the order of the providers, as far as there is anything in the answers; then come the calls of the
first inference and the results of their batch, as they are stored, if it asked for any. A response
has all of them. A turn that hands them out through a channel takes the same course and comes to
the same end, unless it hangs, whenever the receiver goes away; and the channel gets each event that
is emitted before that, in order, whatever becomes of the turn. -/
theorem turn_records (a : Agent) (client : Client σ) (inputs : List ChatMessage) (context : Context)
    (state : σ) (clock : Clock) :
    let t := Turn.start context state clock
    let ended := a.turn client inputs t
    let recalled := a.augment a.memory (t.given inputs)
    let queries := (recalls a.memory (t.given inputs).context clock).filterMap (Recall.query? a.name)
    (¬ client.capabilities.Sees inputs → ended.2.events = [] ∧ ended.2.context = context) ∧
    (client.capabilities.Sees inputs → ∃ stored events,
      ended.2.context = recalled.2.context.addAll stored ∧ ended.2.events = queries ++ events ∧
      a.Mirrors ended.2.inquiries stored events ∧
      ∀ stop, recalled.1 = .error stop → stored = []) ∧
    (∀ r, ended.1 = .ok r → r.innerMessages = ended.2.events) ∧
    ∃ n, ∀ moves,
      let f := (Feed.start inputs t).run a client moves
      f.channel.sent <+: ended.2.events ∧
      (.abandon ∉ moves → f.channel.sent = f.turn.events) ∧
      (n ≤ moves.count .step → ¬ a.Hangs client inputs t ∧ f.stage = .ended ended.1 ∧ f.turn = ended.2 ∨
        a.Hangs client inputs t ∧ f.stage.Stuck) := by
  intro t ended recalled queries
  have hg : a.Goes client inputs t ended := a.turn_goes client inputs t
  refine ⟨fun hs => ?_, fun hs => ?_, fun r hr => turn_innerMessages hr, ?_⟩
  · clear_value ended
    cases hg with
    | refused => exact ⟨rfl, rfl⟩
    | forgot hs' | answered hs' => exact absurd hs' hs
  · obtain ⟨stored, events, hc, he, hm, hstop⟩ := hg.mirrors hs rfl
    have hqueries : recalled.2.events = queries := a.augment_events a.memory (t.given inputs)
    exact ⟨stored, events, hc, hqueries ▸ he, hm, hstop⟩
  · obtain ⟨n, hend⟩ := a.moment_ended_or_stuck client inputs t
    refine ⟨n, fun moves => ?_⟩
    obtain ⟨hs, ht, hc, ha⟩ := Feed.run_moment a client inputs t rfl moves
    have hgrows := (a.moment_grows_turn client inputs t (moves.count .step)).events
    refine ⟨?_, fun hm => ?_, fun hn => ?_⟩
    · rw [← ht] at hgrows
      exact hc.sent.trans hgrows
    · exact hc.all (by simpa using fun hab => hm (ha hab))
    · rw [hs, ht]
      rcases hend _ hn with ⟨hh, he⟩ | hh
      · rw [he]
        exact .inl ⟨hh, rfl, rfl⟩
      · exact .inr hh

end Agent
end ToolAgent
