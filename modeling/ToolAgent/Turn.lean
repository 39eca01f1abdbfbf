/-
One turn of an agent.

The inputs are stored, memory adds to them, and the model is asked. Text ends the
turn. Tool calls are run as one batch; then the turn ends with a handoff, if some
call names one, or with what the model makes of the results, if the agent
reflects, or else with a summary. So there are at most two requests to the model
and one batch.

A turn may break off at many points. `Turn` is what has happened up to then, and
is kept in any case.

A turn whose batch never ends does not end either, and what is given for it here
tells nothing. How far such a turn comes can be seen from its single steps.
-/
import ToolAgent.Agent
import ToolAgent.Batch
import ToolAgent.Summary

namespace ToolAgent

/-- What an observer is told. -/
inductive Diagnostic where
  | multipleHandoffs (targets : List String)
  deriving DecidableEq, Repr

def Diagnostic.message : Diagnostic → String
  | .multipleHandoffs targets =>
    "Multiple handoffs detected, only the first is executed: " ++ Text.quotedList targets

/-- A line of an agent's log. -/
inductive Notice where
  | audit (a : Audit)
  | diagnostic (d : Diagnostic)
  deriving DecidableEq, Repr

/-- Why a turn breaks off. -/
inductive Stop where
  | error (e : AgentError)
  | panic (payload : Payload)
  deriving DecidableEq, Repr

abbrev Ending := Except Stop Response

/-- What a reply of the client is worth: an inference, or a reason to break off. -/
def Reply.accepted : Reply → Except Stop Inference
  | .panic payload => .error (.panic payload)
  | .error .cancelled => .error (.error .cancelled)
  | .error e => .error (.error (.client e))
  | .result ⟨.toolCalls [], _⟩ =>
    .error (.error (.client (.invalidResponse "empty tool call list")))
  | .result r => .ok r

/-- A request and the reply to it, with the context and the clock it was made from. -/
structure Inquiry where
  context : Context
  clock : Clock
  request : Request
  reply : Reply
  deriving Repr

/-- A turn so far, with a client whose state is of type `σ`. -/
structure Turn (σ : Type) where
  context : Context
  client : σ
  clock : Clock
  events : List Event
  inquiries : List Inquiry
  notices : List Notice

namespace Turn

variable {σ : Type}

def start (context : Context) (client : σ) (clock : Clock) : Turn σ :=
  ⟨context, client, clock, [], [], []⟩

def store (t : Turn σ) (m : Message) : Turn σ := { t with context := t.context.add m }

def emit (t : Turn σ) (e : Event) : Turn σ := { t with events := t.events ++ [e] }

/-- Tells what a provider recalled, if it is anything. -/
def emitQuery (t : Turn σ) (items : List MemoryItem) (source : String) : Turn σ :=
  if items.isEmpty then t else t.emit (.memoryQuery items source)

def note (t : Turn σ) (ns : List Notice) : Turn σ := { t with notices := t.notices ++ ns }

/-- The client replied to a request, which left it in a state and took until a clock. -/
def inquire (t : Turn σ) (request : Request) (reply : Reply) (state : σ) (clock : Clock) : Turn σ :=
  { t with
    client := state
    clock := clock
    inquiries := t.inquiries ++ [⟨t.context, t.clock, request, reply⟩] }

def requests (t : Turn σ) : List Request := t.inquiries.map (·.request)

section EmitQuery

variable (t : Turn σ) (items : List MemoryItem) (source : String)

@[simp] theorem emitQuery_context : (t.emitQuery items source).context = t.context := by
  unfold emitQuery; split <;> rfl

@[simp] theorem emitQuery_client : (t.emitQuery items source).client = t.client := by
  unfold emitQuery; split <;> rfl

@[simp] theorem emitQuery_clock : (t.emitQuery items source).clock = t.clock := by
  unfold emitQuery; split <;> rfl

@[simp] theorem emitQuery_inquiries : (t.emitQuery items source).inquiries = t.inquiries := by
  unfold emitQuery; split <;> rfl

end EmitQuery

end Turn

namespace Agent

variable {σ : Type}

/-- Stores the inputs of a turn, all or, when the model does not see pictures and
one of them has some, none. -/
def takeIn (c : Capabilities) (inputs : List ChatMessage) (t : Turn σ) : Except Stop Unit × Turn σ :=
  if !c.vision && inputs.any (·.kind = .multiModal) then (.error (.error .noVision), t)
  else (.ok (), { t with context := t.context.addAll (inputs.map ChatMessage.stored) })

/-- Lets the providers of memory at the context, one after the other. -/
def augment (a : Agent) : List Provider → Turn σ → Except Stop Unit × Turn σ
  | [], t => (.ok (), t)
  | p :: ps, t =>
    let (messages, recalled, clock) := p.update t.context t.clock
    let t := { t with context := { t.context with messages := messages }, clock := clock }
    match recalled with
    | .failure provider message => (.error (.error (.memory provider message)), t)
    | .panic payload => (.error (.panic payload), t)
    | .items items => a.augment ps (t.emitQuery items a.name)

/-- What the model is asked. -/
def request (a : Agent) (tools : List ToolOffer) (t : Turn σ) : Request :=
  ⟨a.systemMessages ++ t.context.visible, tools⟩

/-- Asks the model and stores its answer. -/
def ask (a : Agent) (client : Client σ) (tools : List ToolOffer) (t : Turn σ) :
    Except Stop Inference × Turn σ :=
  if t.clock.isCancelled then (.error (.error .cancelled), t)
  else
    let request := a.request tools t
    let (reply, state, clock) := client.create t.client request t.clock
    let t := t.inquire request reply state clock
    match reply.accepted with
    | .error stop => (.error stop, t)
    | .ok r => (.ok r, t.store (.assistant r.content a.name (some r.usage)))

/-- Runs the calls the model asked for and stores their results. -/
def callTools (a : Agent) (calls : List ToolCall) (usage : Usage) (t : Turn σ) :
    List ToolResult × Turn σ :=
  let t := t.emit (.toolCallRequest calls a.name (some usage))
  let report := a.registry.execute t.clock calls
  let t := { t.store (.toolResults report.results) with clock := report.clock }
  let t := t.note (report.audits.map .audit)
  (report.results, t.emit (.toolCallExecution report.results a.name))

def respond (m : ChatMessage) (t : Turn σ) : Ending × Turn σ := (.ok ⟨m, t.events⟩, t)

def textReply (a : Agent) (text : String) (usage : Usage) : ChatMessage :=
  .text text a.name (some usage)

/-- Asks the model once more, without tools: it must answer with text. -/
def reflect (a : Agent) (client : Client σ) (t : Turn σ) : Ending × Turn σ :=
  match a.ask client [] t with
  | (.error stop, t) => (.error stop, t)
  | (.ok ⟨.text text, usage⟩, t) => respond (a.textReply text usage) t
  | (.ok ⟨.toolCalls calls, _⟩, t) => (.error (.error (.reflectionRequestedTools calls.length)), t)

/-- Ends a turn after its batch. -/
def conclude (a : Agent) (client : Client σ) (calls : List ToolCall) (results : List ToolResult)
    (t : Turn σ) : Ending × Turn σ :=
  match a.registry.handoffsIn calls with
  | h :: more =>
    let several := Notice.diagnostic (.multipleHandoffs ((h :: more).map (·.target)))
    respond (.handoff h.message h.target a.name) (if more.isEmpty then t else t.note [several])
  | [] =>
    if a.reflects then a.reflect client t
    else respond (.toolCallSummary (Summary.renderAll a.template calls results) a.name) t

/-- Asks the model and does what it wants. -/
def answer (a : Agent) (client : Client σ) (t : Turn σ) : Ending × Turn σ :=
  match a.ask client a.registry.offers t with
  | (.error stop, t) => (.error stop, t)
  | (.ok ⟨.text text, usage⟩, t) => respond (a.textReply text usage) t
  | (.ok ⟨.toolCalls calls, usage⟩, t) =>
    let (results, t) := a.callTools calls usage t
    a.conclude client calls results t

/-- A whole turn, if it ends. -/
def turn (a : Agent) (client : Client σ) (inputs : List ChatMessage) (t : Turn σ) :
    Ending × Turn σ :=
  match takeIn client.capabilities inputs t with
  | (.error stop, t) => (.error stop, t)
  | (.ok (), t) =>
    match a.augment a.memory t with
    | (.error stop, t) => (.error stop, t)
    | (.ok (), t) => a.answer client t

end Agent
end ToolAgent
