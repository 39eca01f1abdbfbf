/-
A window that is wide enough makes no difference.

`widened` takes the windows out of a state and leaves all else as it is. It commutes with every
operation as long as each request shows all that is stored (`Agent.turn_widened`, `run_widened`).
A window that spans all of the stored messages does so: nothing is cut off, and nothing is dropped
at the start, since what a run stores never starts with results (`Sound`).
-/
import ToolAgent.Proofs.Conversation.Requests
import ToolAgent.Proofs.Outcome
import ToolAgent.Proofs.Turn.Stages

namespace ToolAgent

variable {σ : Type}

/-- The provider looks at the stored messages only, not at the window. -/
def Provider.ReadsMessages (p : Provider) : Prop :=
  ∀ c c' clock, c.messages = c'.messages → p.update c clock = p.update c' clock

/-- Memory looks at the stored messages only. -/
def Operation.ReadsMessages : Operation → Prop
  | .turns memory _ _ => ∀ p ∈ memory, p.ReadsMessages
  | _ => True

theorem Provider.scripted_readsMessages {name : String} {additions : List Message} {clears : Bool}
    {answer : Recall} : (scripted name additions clears answer).ReadsMessages := by
  intro c c' clock h
  simp only [scripted, h]

theorem Notebook.provider_readsMessages (m : Notebook) : m.provider.ReadsMessages := by
  intro c c' clock h
  have htext : c.lastUserText? = c'.lastUserText? := by simp only [Context.lastUserText?, h]
  simp only [Notebook.provider, Notebook.update, htext]
  split
  · rw [h]
  · split
    · rw [h]
    · simp only [Context.add, h]

/-! ## Without windows -/

namespace Context

/-- The same messages without a window. -/
def widened (c : Context) : Context := { c with window := .all }

/-- The model sees all that is stored. -/
def Whole (c : Context) : Prop := c.visible = c.messages

/-- A window that spans all messages shows them all, unless the first one holds results. -/
theorem Whole.of_size {c : Context} {size : Nat} {pos : 0 < size} (hw : c.window = .last size pos)
    (hs : c.messages.length ≤ size) (hp : Paired c.messages) : c.Whole := by
  have hspan : c.messages.drop (c.messages.length - size) = c.messages := by
    rw [Nat.sub_eq_zero_of_le hs, List.drop_zero]
  rcases visible_buffered hw with h | ⟨results, h⟩
  · exact h.symm.trans hspan
  · have hfirst := hp.start (.toolResults results) (by rw [← hspan, h]; rfl)
    cases hfirst

end Context

def Inquiry.widened (q : Inquiry) : Inquiry := { q with context := q.context.widened }

namespace Turn

def widened (t : Turn σ) : Turn σ :=
  { t with context := t.context.widened, inquiries := t.inquiries.map Inquiry.widened }

theorem widened_emitQuery (t : Turn σ) (items : List MemoryItem) (source : String) :
    (t.emitQuery items source).widened = t.widened.emitQuery items source := by
  unfold emitQuery
  split <;> rfl

theorem widened_inquire (t : Turn σ) (request : Request) (reply : Reply) (state : σ) (clock : Clock) :
    (t.inquire request reply state clock).widened = t.widened.inquire request reply state clock := by
  simp [widened, inquire, Inquiry.widened]

end Turn

/-! ## Turns -/

namespace Agent

variable {a : Agent} {client : Client σ} {tools : List ToolOffer} {t t' : Turn σ}

theorem takeIn_widened (c : Capabilities) (inputs : List ChatMessage) (t : Turn σ) :
    takeIn c inputs t.widened = Prod.map id Turn.widened (takeIn c inputs t) := by
  unfold takeIn
  split <;> rfl

theorem augment_widened : ∀ (ps : List Provider) (t : Turn σ), (∀ p ∈ ps, p.ReadsMessages) →
    a.augment ps t.widened = Prod.map id Turn.widened (a.augment ps t)
  | [], _, _ => rfl
  | p :: ps, t, h => by
    have hp : p.update t.widened.context t.widened.clock = p.update t.context t.clock :=
      h p (by simp) _ _ _ rfl
    match hu : p.update t.context t.clock with
    | (messages, recalled, clock) =>
      rw [hu] at hp
      cases recalled with
      | items items =>
        have ih := augment_widened ps (Turn.emitQuery
          { t with context := { t.context with messages := messages }, clock := clock } items a.name)
          fun q hq => h q (List.mem_cons_of_mem p hq)
        rw [Turn.widened_emitQuery] at ih
        simp only [augment, hp, hu]
        exact ih
      | failure | panic =>
        simp only [augment, hp, hu]
        rfl

/-- An inference that is made from a context shows it all, if all its inquiries do. -/
theorem Asks.whole {r} (h : a.Asks client tools t (r, t')) (hq : ∀ q ∈ t'.inquiries, q.context.Whole)
    (hc : t.clock.isCancelled = false) : t.context.Whole := by
  cases h with
  | cancelled hc' => rw [hc] at hc'; cases hc'
  | refused | accepted => exact hq _ (List.mem_append_right _ (List.mem_singleton_self _))

theorem ask_widened (h : ∀ q ∈ (a.ask client tools t).2.inquiries, q.context.Whole) :
    a.ask client tools t.widened = Prod.map id Turn.widened (a.ask client tools t) := by
  have hwhole := (a.ask_asks client tools t).whole h
  cases hc : t.clock.isCancelled with
  | true =>
    have hc' : t.widened.clock.isCancelled = true := hc
    simp only [ask, hc, hc', if_true, Prod.map, id]
  | false =>
    have hc' : t.widened.clock.isCancelled = false := hc
    have hrequest : a.request tools t.widened = a.request tools t := by
      have hvisible : t.context.visible = t.widened.context.visible := hwhole hc
      rw [request, request, hvisible]
    rcases hr : client.create t.client (a.request tools t) t.clock with ⟨reply, state, clock⟩
    have hr' : client.create t.widened.client (a.request tools t) t.widened.clock = (reply, state, clock) := hr
    simp only [ask, hc, hc', hrequest, hr, hr']
    cases reply.accepted with
    | error stop => simp only [← Turn.widened_inquire]; rfl
    | ok r => simp only [← Turn.widened_inquire]; rfl

theorem callTools_widened (a : Agent) (calls : List ToolCall) (usage : Usage) (t : Turn σ) :
    a.callTools calls usage t.widened = Prod.map id Turn.widened (a.callTools calls usage t) := rfl

theorem reflect_widened (h : ∀ q ∈ (a.reflect client t).2.inquiries, q.context.Whole) :
    a.reflect client t.widened = Prod.map id Turn.widened (a.reflect client t) := by
  rw [reflect_snd] at h
  unfold reflect
  rw [ask_widened h]
  match a.ask client [] t with
  | (.error stop, t') => rfl
  | (.ok ⟨.text text, usage⟩, t') => rfl
  | (.ok ⟨.toolCalls calls, usage⟩, t') => rfl

theorem conclude_widened {calls : List ToolCall} {results : List ToolResult}
    (h : ∀ q ∈ (a.conclude client calls results t).2.inquiries, q.context.Whole) :
    a.conclude client calls results t.widened =
      Prod.map id Turn.widened (a.conclude client calls results t) := by
  unfold conclude at h ⊢
  split
  next handoff more _ => cases hm : more.isEmpty <;> rfl
  next hnone =>
    simp only [hnone] at h
    split
    next hr => rw [if_pos hr] at h; exact reflect_widened h
    next hr => rfl

/-- What was asked first is still there when the turn has been answered. -/
theorem ask_grows_answer (a : Agent) (client : Client σ) (t : Turn σ) :
    (a.ask client a.registry.offers t).2.Grows (a.answer client t).2 := by
  unfold answer
  match a.ask client a.registry.offers t with
  | (.error stop, t') => exact .refl _
  | (.ok ⟨.text text, usage⟩, t') => exact .refl _
  | (.ok ⟨.toolCalls calls, usage⟩, t') =>
    have hbatch : t'.Grows (a.callTools calls usage t').2 :=
      ⟨⟨_, (List.append_assoc t'.events _ _).symm⟩, List.prefix_rfl⟩
    exact hbatch.trans (a.conclude_grows client calls _ _)

theorem answer_widened (h : ∀ q ∈ (a.answer client t).2.inquiries, q.context.Whole) :
    a.answer client t.widened = Prod.map id Turn.widened (a.answer client t) := by
  have hask := ask_widened fun q hq => h q ((a.ask_grows_answer client t).inquiries.subset hq)
  unfold answer at h ⊢
  rw [hask]
  match a.ask client a.registry.offers t, h with
  | (.error stop, t'), _ => rfl
  | (.ok ⟨.text text, usage⟩, t'), _ => rfl
  | (.ok ⟨.toolCalls calls, usage⟩, t'), h =>
    simp only [Prod.map, id, callTools_widened]
    exact conclude_widened h

/-- A turn whose requests all show what is stored goes the same way without a window. -/
theorem turn_widened {inputs : List ChatMessage} (hm : ∀ p ∈ a.memory, p.ReadsMessages)
    (h : ∀ q ∈ (a.turn client inputs t).2.inquiries, q.context.Whole) :
    a.turn client inputs t.widened = Prod.map id Turn.widened (a.turn client inputs t) := by
  unfold turn at h ⊢
  rw [takeIn_widened]
  match takeIn client.capabilities inputs t, h with
  | (.error stop, t'), _ => rfl
  | (.ok (), t'), h =>
    simp only [Prod.map, id, augment_widened a.memory t' hm] at h ⊢
    match a.augment a.memory t', h with
    | (.error stop, t''), _ => rfl
    | (.ok (), t''), h => exact answer_widened h

end Agent

/-! ## Runs -/

def Session.widened (s : Session σ) : Session σ := { s with context := s.context.widened }

def Entry.widened : Entry σ → Entry σ
  | .turn ended => .turn (Prod.map id Turn.widened ended)
  | .reset => .reset

namespace Conversation

variable {a : Agent} {client : Client σ}

/-- The conversation with no windows anywhere in it; all else is as it was. -/
def widened (c : Conversation σ) : Conversation σ :=
  { c with session := c.session.widened, log := c.log.map Entry.widened }

/-- Every request so far showed all that was stored. -/
def ShowsAll (c : Conversation σ) : Prop :=
  ∀ e, .turn e ∈ c.log → ∀ q ∈ e.2.inquiries, q.context.Whole

theorem ShowsAll.earlier {c c' : Conversation σ} (h : c'.ShowsAll) (hl : c.log <:+ c'.log) : c.ShowsAll :=
  fun e he => h e (hl.subset he)

/-! ### The log only grows -/

theorem afterTurns_log : ∀ (es : List (Ending × Turn σ)) (c : Conversation σ), c.log <:+ (es.foldl afterTurn c).log
  | [], _ => List.suffix_rfl
  | e :: es, c =>
    have hlog : c.log <:+ (c.afterTurn e).log := List.suffix_cons _ _
    hlog.trans (afterTurns_log es (c.afterTurn e))

theorem perform_log (c : Conversation σ) (o : Operation) : c.log <:+ (c.perform a client o).log := by
  cases o with
  | turns memory now turns => exact afterTurns_log _ c
  | reset => exact List.suffix_cons _ _
  | save | load => exact List.suffix_rfl
  | restore | loadJson =>
    simp only [perform]
    split <;> exact List.suffix_rfl

theorem run_log : ∀ (ops : List Operation) (c : Conversation σ), c.log <:+ (c.run a client ops).log
  | [], _ => List.suffix_rfl
  | o :: ops, c => (c.perform_log o).trans (run_log ops (c.perform a client o))

/-! ### Operations -/

theorem turns_widened (hm : ∀ p ∈ a.memory, p.ReadsMessages) :
    ∀ (turns : List (List ChatMessage × Token)) (now : Nat) (c : Conversation σ),
      ((c.session.turns a client now turns).foldl afterTurn c).ShowsAll →
      ((c.session.turns a client now turns).foldl afterTurn c).widened =
        (c.widened.session.turns a client now turns).foldl afterTurn c.widened
  | [], _, _, _ => rfl
  | (inputs, token) :: turns, now, c, h => by
    let e := c.session.turn a client now inputs token
    have hrest : ((c.afterTurn e).session.turns a client e.2.clock.now turns).foldl afterTurn (c.afterTurn e) =
        (c.session.turns a client now ((inputs, token) :: turns)).foldl afterTurn c := rfl
    rw [← hrest] at h ⊢
    have he : ∀ q ∈ e.2.inquiries, q.context.Whole :=
      h e ((afterTurns_log _ (c.afterTurn e)).subset (List.mem_cons_self ..))
    have hturn : c.widened.session.turn a client now inputs token = Prod.map id Turn.widened e :=
      Agent.turn_widened hm he
    have hafter : (c.afterTurn e).widened =
        c.widened.afterTurn (c.widened.session.turn a client now inputs token) := by
      rw [hturn]
      rfl
    have hclock : (c.widened.session.turn a client now inputs token).2.clock.now = e.2.clock.now := by
      rw [hturn]
      rfl
    rw [turns_widened hm turns e.2.clock.now (c.afterTurn e) h, hafter, ← hclock]
    rfl

theorem perform_widened {c : Conversation σ} {o : Operation} (ho : o.ReadsMessages)
    (h : (c.perform a client o).ShowsAll) :
    (c.perform a client o).widened = c.widened.perform a client o := by
  cases o with
  | turns memory now turns => exact turns_widened (a := { a with memory := memory }) ho turns now c h
  | reset | save | load => rfl
  | restore i =>
    have hsaved : c.widened.saved = c.saved := rfl
    simp only [perform, hsaved]
    split <;> rfl
  | loadJson v =>
    simp only [perform, Context.loadJson]
    cases SavedState.ofJson v <;> rfl

/-- A run whose requests all showed what was stored goes the same way without a window. -/
theorem run_widened : ∀ {ops : List Operation} {c : Conversation σ}, (∀ o ∈ ops, o.ReadsMessages) →
    (c.run a client ops).ShowsAll → (c.run a client ops).widened = c.widened.run a client ops
  | [], _, _, _ => rfl
  | o :: ops, c, hops, h => by
    have hstep : (c.perform a client o).widened = c.widened.perform a client o :=
      perform_widened (hops o (by simp)) (h.earlier (run_log ops _))
    have hrun := run_widened (fun o' ho' => hops o' (List.mem_cons_of_mem o ho')) h
    exact hrun.trans (congrArg (run a client ops) hstep)

/-- A run in a window that always spans what is stored shows all of it in every request. -/
theorem run_showsAll {size : Nat} {pos : 0 < size} {state : σ} {ops : List Operation}
    (hops : ∀ o ∈ ops, o.AddsNotes ∧ o.isForeign = false)
    (hsize : ∀ e, .turn e ∈ ((start (.last size pos) state).run a client ops).log →
      e.2.context.messages.length ≤ size) :
    ((start (.last size pos) state).run a client ops).ShowsAll := by
  intro e he q hq
  obtain ⟨hasked, hprefix⟩ := (run_traced hops (.start a (.last size pos) state)).asked e he q hq
  have hlength : q.context.messages.length ≤ size := hprefix.length_le.trans (hsize e he)
  exact .of_size hasked.framed hlength hasked.paired

/-- **A window that is wide enough.** Turns, resets, savings and loadings of own states, with memory
that looks at the stored messages only, start from nothing in a window that no turn has left with
more messages than it is wide. Then after every one of these operations all is the same as
without a window: what is stored and saved, the client, and of every turn in the log the ending,
the events, the requests and the replies to them, and the notices. -/
theorem run_wide (a : Agent) (client : Client σ) (size : Nat) (pos : 0 < size) (state : σ) (ops : List Operation)
    (hops : ∀ o ∈ ops, o.AddsNotes ∧ o.ReadsMessages ∧ o.isForeign = false)
    (hsize : ∀ e, .turn e ∈ ((start (.last size pos) state).run a client ops).log →
      e.2.context.messages.length ≤ size) :
    ∀ k, ((start (.last size pos) state).run a client (ops.take k)).widened =
      (start .all state).run a client (ops.take k) := by
  intro k
  have hearlier : ((start (.last size pos) state).run a client (ops.take k)).log <:+
      ((start (.last size pos) state).run a client ops).log := by
    have h : ((start (.last size pos) state).run a client (ops.take k)).log <:+
        (((start (.last size pos) state).run a client (ops.take k)).run a client (ops.drop k)).log := run_log _ _
    rwa [run, run, ← List.foldl_append, List.take_append_drop] at h
  have hmem : ∀ o ∈ ops.take k, o ∈ ops := fun o ho => List.mem_of_mem_take ho
  have hshown : ((start (.last size pos) state).run a client (ops.take k)).ShowsAll :=
    run_showsAll (fun o ho => ⟨(hops o (hmem o ho)).1, (hops o (hmem o ho)).2.2⟩)
      fun e he => hsize e (hearlier.subset he)
  exact run_widened (fun o ho => (hops o (hmem o ho)).2.1) hshown

/-- The forecaster in a window of six, with its conversation restored after a reset. -/
theorem forecaster_wide :
    let remark : Operation := .turns Agent.forecaster.memory 0 [([.text "Weather?" "user" none], .never)]
    let ops : List Operation := [remark, .save, .reset, .restore 0]
    let c := (start (.last 6 (by decide)) Replay.forecast).run .forecaster (Replay.client .usual) ops
    (∀ o ∈ ops, o.AddsNotes ∧ o.ReadsMessages ∧ o.isForeign = false) ∧
      (∀ e, .turn e ∈ c.log → e.2.context.messages.length ≤ 6) ∧
      c.widened = (start .all Replay.forecast).run .forecaster (Replay.client .usual) ops := by
  intro remark ops c
  have hreads : ∀ p ∈ Agent.forecaster.memory, p.ReadsMessages := by
    simp only [Agent.forecaster, List.mem_singleton, forall_eq]
    exact Provider.scripted_readsMessages
  have hops : ∀ o ∈ ops, o.AddsNotes ∧ o.ReadsMessages ∧ o.isForeign = false := by
    simpa [ops, remark, Operation.AddsNotes, Operation.ReadsMessages, Operation.isForeign] using
      ⟨Agent.forecaster_addsNotes, hreads⟩
  have hsize : ∀ e, .turn e ∈ c.log → e.2.context.messages.length ≤ 6 := by
    intro e he
    rcases List.mem_cons.1 he with he | he
    · cases he
    · cases List.mem_singleton.1 he
      decide
  refine ⟨hops, hsize, ?_⟩
  exact run_wide .forecaster (Replay.client .usual) 6 (by decide) .forecast ops hops hsize 4

end Conversation
end ToolAgent
