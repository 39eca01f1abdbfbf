/-
Turns with the parrot.

It asks for `echo` with the last text of the user, and `echo` gives back just that
(`Registry.execute_echo`). So a message of text always leads to the same course: one
batch of one call, and then a summary or, if the agent reflects, what the parrot says to
what it sees then (`Parrot.course`). Of the supply of ids the turn takes the next one,
and depends on no other (`Agent.turn_parrot`).
-/
import ToolAgent.Client.Parrot
import ToolAgent.Proofs.Json.Written
import ToolAgent.Proofs.Registry
import ToolAgent.Proofs.Turn
import ToolAgent.Proofs.Window

namespace ToolAgent

/-! ## Arguments -/

namespace Json

/-- An object with one text in it is read as it was written. -/
theorem parse_compact_field (k s : String) :
    parse (Json.object [(k, .string s)]).compact = .ok (.object [(k, .string s)]) := by
  have hplain : (Json.object [(k, .string s)]).Plain 1 := by simp [Plain]
  obtain ⟨hroot, htrailing⟩ := Document.read_write Spacing.none_blank hplain (by decide)
  simp only [parse, compact, hroot.value, htrailing]
  rfl

end Json

/-! ## Tools -/

namespace Registry

variable {r : Registry} {c : ToolCall} {clock : Clock}

/-- A call that is over at once makes a batch of one round. -/
theorem execute_finish {o : Outcome} (h : r.admit c = .ok (.finish o)) (hc : clock.isCancelled = false) :
    r.execute clock [c] = ⟨[c.resultOf (c.verdictOf o)], [c.auditOf (c.verdictOf o)], clock⟩ := by
  have hpoll : r.poll c clock .fresh = (.settled (c.verdictOf o), clock) := by
    simp [poll, h, ToolCall.resume, hc, ToolCall.advance]
  have hround : Batch.round r clock [(c, .fresh)] [0] =
      ([(c, .settled (c.verdictOf o))], clock, [c.auditOf (c.verdictOf o)]) := by
    simp [Batch.round, hpoll, Batch.newAudit, Progress.verdict?]
  have hbound : Batch.bound r [c] = 2 + 1 := by simp [Batch.bound, h, Body.size]
  simp [execute, allRounds, hbound, Batch.rounds, hround, Batch.isSettled, Batch.report, Progress.verdict?, Batch.verdict]

theorem admit_echo (h : Tool.echo ∈ r.tools) (id text : String) :
    r.admit (Parrot.echoCall id text) = .ok (.finish (.value (.string text))) := by
  have hne : r.isEmpty = false := by
    have hall : Tool.echo ∈ r.all := List.mem_append_left _ h
    simpa [isEmpty] using List.ne_nil_of_mem hall
  have hget : r.get? "echo" = some Tool.echo := get?_of_mem h
  simp [hne, Registry.admit, Parrot.echoCall, hget, Json.parse_compact_field, Tool.echo, Json.field?, Json.string?]

theorem execute_echo (h : Tool.echo ∈ r.tools) (hc : clock.isCancelled = false) (id text : String) :
    (r.execute clock [Parrot.echoCall id text]).results = [⟨id, text, false⟩] ∧
      (r.execute clock [Parrot.echoCall id text]).clock = clock := by
  rw [execute_finish (r.admit_echo h id text) hc]
  exact ⟨rfl, rfl⟩

end Registry

/-! ## What the parrot says -/

namespace Parrot

/-- What the parrot says to messages if no tool is on offer, and the tokens it counts for that. -/
def reply (ms : List Message) : String × Usage :=
  match ms.getLast? with
  | some (.toolResults results) => (speak ("; ".intercalate (results.map (·.content))), .none)
  | _ => (speak (lastUserText ms), ⟨UInt64.ofNat ms.length, 1⟩)

variable {idOf : Nat → String} {used : Nat}

theorem answer_unoffered (ms : List Message) :
    answer idOf used ⟨ms, []⟩ = (⟨.text (reply ms).1, (reply ms).2⟩, used) := by
  unfold answer reply
  split
  next h => simp only [h]
  next h => simp [Request.toolNames]

theorem lastUserText_getLast {ms : List Message} {text source : String}
    (h : ms.getLast? = some (.user (.text text) source)) : lastUserText ms = text := by
  obtain ⟨before, rfl⟩ := List.getLast?_eq_some_iff.1 h
  simp [lastUserText, List.findSome?_cons, Message.userText?, UserContent.asText]

/-- With `echo` on offer, the parrot asks for it when the user spoke last. -/
theorem answer_offered {r : Request} {text source : String} (h : "echo" ∈ r.toolNames)
    (hm : r.messages.getLast? = some (.user (.text text) source)) :
    answer idOf used r =
      (⟨.toolCalls [echoCall (idOf used) text], ⟨UInt64.ofNat r.messages.length, 1⟩⟩, used + 1) := by
  simp [answer, hm, h, lastUserText_getLast hm]

/-- The batch for a text, from the context that ends with it. -/
def round (a : Agent) (id text : String) (heard : Context) : Round :=
  ⟨[echoCall id text], ⟨UInt64.ofNat (a.systemMessages ++ heard.visible).length, 1⟩, [⟨id, text, false⟩]⟩

/-- The course of a turn on a text, from the context that ends with it. -/
def course (a : Agent) (id text : String) (heard : Context) : Course :=
  let b := round a id text heard
  if a.reflects then
    let (words, usage) := reply (a.systemMessages ++ (heard.addAll (a.exchange b)).visible)
    .reflected b words usage
  else .summarised b

variable {a : Agent} {id text : String} {heard : Context}

theorem course_summarised (h : a.reflects = false) : course a id text heard = .summarised (round a id text heard) := by
  simp [course, h]

theorem course_reflected (h : a.reflects = true) :
    let said := reply (a.systemMessages ++ (heard.addAll (a.exchange (round a id text heard))).visible)
    course a id text heard = .reflected (round a id text heard) said.1 said.2 := by
  simp [course, h]

end Parrot

/-! ## Turns -/

namespace Agent

variable {a : Agent} {t : Turn Nat} {text source : String}

/-- When the user spoke last, the parrot asks for `echo`, and takes an id for that. -/
theorem ask_parrot (idOf : Nat → String) (he : Tool.echo ∈ a.registry.tools) (hc : t.clock.isCancelled = false)
    (hm : t.context.visible.getLast? = some (.user (.text text) source)) :
    let b := Parrot.round a (idOf t.client) text t.context
    ∃ t', a.ask (Parrot.client idOf) a.registry.offers t = (.ok ⟨.toolCalls b.calls, b.usage⟩, t') ∧
      t'.client = t.client + 1 ∧ t'.clock = t.clock := by
  intro b
  have hoffers : "echo" ∈ (a.request a.registry.offers t).toolNames := by
    have hmem : Tool.echo.offer ∈ a.registry.offers := List.mem_map_of_mem (List.mem_append_left _ he)
    exact List.mem_map_of_mem hmem
  have hlast : (a.request a.registry.offers t).messages.getLast? = some (.user (.text text) source) := by
    simp [request, List.getLast?_append, hm]
  have hanswer : Parrot.answer idOf t.client (a.request a.registry.offers t) =
      (⟨.toolCalls b.calls, b.usage⟩, t.client + 1) := Parrot.answer_offered hoffers hlast
  refine ⟨(t.inquire (a.request a.registry.offers t) (.result ⟨.toolCalls b.calls, b.usage⟩) (t.client + 1)
    t.clock).store (a.uttered (.toolCalls b.calls) b.usage), ?_, rfl, rfl⟩
  simp only [ask, hc, Parrot.client, hanswer]
  rfl

/-- The call is run, and no time passes. -/
theorem batch_parrot (idOf : Nat → String) (he : Tool.echo ∈ a.registry.tools) (hc : t.clock.isCancelled = false)
    (hm : t.context.visible.getLast? = some (.user (.text text) source)) :
    let b := Parrot.round a (idOf t.client) text t.context
    ∃ t', a.Batches (Parrot.client idOf) t b t' ∧
      a.answer (Parrot.client idOf) t = a.conclude (Parrot.client idOf) b.calls b.results t' ∧
      t'.client = t.client + 1 ∧ t'.clock = t.clock := by
  intro b
  obtain ⟨t₁, hask, hclient, hclock⟩ := ask_parrot idOf he hc hm
  obtain ⟨hresults, hafter⟩ := Registry.execute_echo he (hclock ▸ hc) (idOf t.client) text
  let t₂ := (a.callTools b.calls b.usage t₁).2
  have htools : a.callTools b.calls b.usage t₁ = (b.results, t₂) := Prod.ext hresults rfl
  refine ⟨t₂, ?_, ?_, hclient, hafter.trans hclock⟩
  · have hasks := a.ask_asks (Parrot.client idOf) a.registry.offers t
    rw [hask] at hasks
    have hbatch := Batches.mk hasks
    rwa [htools] at hbatch
  · simp only [answer, hask]
    rw [htools]

/-- Asked to reflect, the parrot always has something to say. -/
theorem reflect_parrot (idOf : Nat → String) (hc : t.clock.isCancelled = false) :
    let said := Parrot.reply (a.systemMessages ++ t.context.visible)
    ∃ t', a.Asks (Parrot.client idOf) [] t (.ok ⟨.text said.1, said.2⟩, t') ∧
      a.reflect (Parrot.client idOf) t = respond (a.textReply said.1 said.2) t' ∧ t'.client = t.client := by
  intro said
  have hanswer : Parrot.answer idOf t.client (a.request [] t) = (⟨.text said.1, said.2⟩, t.client) :=
    Parrot.answer_unoffered _
  let t' := (t.inquire (a.request [] t) (.result ⟨.text said.1, said.2⟩) t.client t.clock).store
    (a.uttered (.text said.1) said.2)
  have hask : a.ask (Parrot.client idOf) [] t = (.ok ⟨.text said.1, said.2⟩, t') := by
    simp only [ask, hc, Parrot.client, hanswer]
    rfl
  have hasks := a.ask_asks (Parrot.client idOf) [] t
  rw [hask] at hasks
  refine ⟨t', hasks, ?_, rfl⟩
  simp only [reflect, hask]

/-- What a turn comes to once it has heard a text. -/
theorem answer_parrot (idOf : Nat → String) (he : Tool.echo ∈ a.registry.tools) (hc : t.clock.isCancelled = false)
    (hm : t.context.visible.getLast? = some (.user (.text text) source)) :
    let k := Parrot.course a (idOf t.client) text t.context
    let ended := a.answer (Parrot.client idOf) t
    a.Takes (Parrot.client idOf) t k ended.2 ∧ ended.1 = .of (k.outcome a) ended.2.events ∧
      ended.2.client = t.client + 1 := by
  intro k ended
  obtain ⟨t₁, hb, hended, hclient, hclock⟩ := batch_parrot idOf he hc hm
  have hh : a.registry.handoffsIn [Parrot.echoCall (idOf t.client) text] = [] := by
    have hnone : a.registry.handoff? "echo" = none := Registry.handoff?_of_mem he
    simp [Registry.handoffsIn, Parrot.echoCall, hnone]
  simp only [ended, hended]
  cases hr : a.reflects with
  | false =>
    simp only [k, Parrot.course_summarised hr]
    simp only [conclude, Parrot.round, hh, hr]
    exact ⟨.summarised hb hh hr, rfl, hclient⟩
  | true =>
    obtain ⟨t₂, hasks, hreflect, hclient₂⟩ := reflect_parrot (a := a) idOf (hclock ▸ hc)
    rw [hb.context] at hasks hreflect
    simp only [k, Parrot.course_reflected hr]
    simp only [conclude, Parrot.round, hh, hr, if_true]
    rw [hreflect]
    exact ⟨.reflected hb hh hr hasks, rfl, hclient₂.trans hclient⟩

/-- A turn on a text: it is stored, the course is the parrot's, and one id is taken. -/
theorem turn_parrot (idOf : Nat → String) (he : Tool.echo ∈ a.registry.tools) (hmem : a.memory = [])
    (hc : t.clock.isCancelled = false) (text source : String) (usage : Option Usage) :
    let heard := t.context.add (.user (.text text) source)
    let k := Parrot.course a (idOf t.client) text heard
    let ended := a.turn (Parrot.client idOf) [.text text source usage] t
    ended.1 = .of (k.outcome a) ended.2.events ∧ ended.2.context = heard.addAll (k.stored a) ∧
      ended.2.events = t.events ++ k.events a ∧ ended.2.client = t.client + 1 := by
  intro heard k ended
  let t₁ : Turn Nat := { t with context := heard }
  have hended : ended = a.answer (Parrot.client idOf) t₁ := by
    simp only [ended, turn, takeIn, hmem, augment]
    rfl
  have hm : t₁.context.visible.getLast? = some (.user (.text text) source) :=
    t.context.visible_getLast?_add rfl
  obtain ⟨htakes, hout, hclient⟩ := answer_parrot idOf he (show t₁.clock.isCancelled = false from hc) hm
  rw [hended]
  exact ⟨hout, htakes.context, htakes.events, hclient⟩

end Agent
end ToolAgent
