/-
Agents as they are built.

A blueprint is refused for the first thing that is wrong with it (`Blueprint.faults`); without a
fault it gives an agent with its tools and handoffs (`Blueprint.build_ok`). By a name such
an agent finds the one tool that bears it, and a handoff if it is one of a handoff, and the model
is offered all of them and nothing else (`Agent.Registers`).
-/
import ToolAgent.Proofs.Registry
import ToolAgent.Proofs.Turn

namespace ToolAgent

/-! ## The tools on offer -/

namespace Agent

variable {σ : Type} {a : Agent} {client : Client σ} {tools : List ToolOffer} {t t' : Turn σ} {k : Course} {b : Round}

theorem Asks.offers {r} (h : a.Asks client tools t (r, t')) (ht : t.inquiries = []) :
    ∀ q ∈ t'.inquiries.head?, q.request.tools = tools := by
  intro q hq
  rcases h.inquiries with ⟨he, -⟩ | ⟨q', he, -, hr, -⟩
  · simp [he, ht] at hq
  · obtain rfl : q' = q := by simpa [he, ht] using hq
    rw [hr]
    rfl

/-- The first request of a course, if there is any, offers all tools. -/
theorem Takes.offers (h : a.Takes client t k t') (ht : t.inquiries = []) :
    ∀ q ∈ t'.inquiries.head?, q.request.tools = a.registry.offers := by
  have hbatch {b t₁} (hb : a.Batches client t b t₁) :
      ∃ q, t₁.inquiries = [q] ∧ q.request.tools = a.registry.offers := by
    obtain ⟨q, he, -, hr, -⟩ := hb.inquiries
    exact ⟨q, by simpa [ht] using he, by rw [hr]; rfl⟩
  intro q hq
  cases h with
  | unanswered ha | told ha => exact ha.offers ht q hq
  | handedOver hb _ =>
    obtain ⟨q', he, hr⟩ := hbatch hb
    obtain rfl : q' = q := by simpa [noteHandoffs_inquiries, he] using hq
    exact hr
  | summarised hb _ _ =>
    obtain ⟨q', he, hr⟩ := hbatch hb
    obtain rfl : q' = q := by simpa [he] using hq
    exact hr
  | unreflected hb _ _ ha | reflected hb _ _ ha | overreached hb _ _ ha =>
    -- A second request comes behind the one for the batch, which stays the first.
    obtain ⟨q', he, hr⟩ := hbatch hb
    obtain rfl : q' = q := by
      rcases ha.inquiries with ⟨he', -⟩ | ⟨q'', he', -⟩ <;> simpa [he', he] using hq
    exact hr

theorem turn_offers (inputs : List ChatMessage) (ht : t.inquiries = []) :
    ∀ q ∈ (a.turn client inputs t).2.inquiries.head?, q.request.tools = a.registry.offers := by
  rcases (a.turn_goes client inputs t).course ht with ⟨-, -, -, hnone, -⟩ | ⟨t₁, k, hnone, -, hk, -⟩
  · simp [hnone]
  · exact hk.offers hnone

end Agent

/-! ## Building -/

namespace Blueprint

variable {b : Blueprint} {c : Capabilities} {a : Agent}

/-- What is wrong with a blueprint, in the order in which it is looked for. -/
def faults (b : Blueprint) (c : Capabilities) : List ConfigurationError :=
  (if b.tools ≠ [] ∧ c.functionCalling = false then [.toolsUnsupported] else []) ++
    (if b.handoffs ≠ [] ∧ c.functionCalling = false then [.handoffsUnsupported] else []) ++
    (Registry.clashes b.tools b.handoffs).map .names

theorem faults_eq_nil_iff : b.faults c = [] ↔
    (b.tools.map (·.name) ++ b.handoffs.map (·.name)).Nodup ∧
      (b.tools ≠ [] ∨ b.handoffs ≠ [] → c.functionCalling = true) := by
  rw [← Registry.clashes_eq_nil_iff]
  cases hc : c.functionCalling
  · simp [faults, hc]
    tauto
  · simp [faults, hc]

/-- A blueprint is refused for its first fault. -/
theorem build_eq_error_iff {e : ConfigurationError} : b.build c = .error e ↔ (b.faults c).head? = some e := by
  unfold build
  split
  next h =>
    have htools : b.tools ≠ [] ∧ c.functionCalling = false := by simpa using h
    simp [faults, htools]
  next h =>
    have htools : ¬ (b.tools ≠ [] ∧ c.functionCalling = false) := by simpa using h
    rw [faults, if_neg htools]
    split
    next h =>
      have hhandoffs : b.handoffs ≠ [] ∧ c.functionCalling = false := by simpa using h
      simp [hhandoffs]
    next h =>
      have hhandoffs : ¬ (b.handoffs ≠ [] ∧ c.functionCalling = false) := by simpa using h
      rw [if_neg hhandoffs, List.nil_append, List.nil_append, List.head?_map]
      split
      next clash hr => simp [Registry.build_eq_error_iff.1 hr]
      next r hr => simp [Registry.clashes_of_build hr]

theorem exists_build_iff : (∃ a, b.build c = .ok a) ↔ b.faults c = [] := by
  constructor
  · rintro ⟨a, ha⟩
    cases hf : b.faults c with
    | nil => rfl
    | cons e es =>
      have he : b.build c = .error e := build_eq_error_iff.2 (by rw [hf]; rfl)
      rw [ha] at he
      cases he
  · intro hnil
    cases hb : b.build c with
    | ok a => exact ⟨a, rfl⟩
    | error e =>
      have he := build_eq_error_iff.1 hb
      rw [hnil] at he
      cases he

/-- What an agent is made of. -/
theorem build_ok (h : b.build c = .ok a) : ∃ r, Registry.build b.tools b.handoffs = .ok r ∧
    a = ⟨b.name, b.description, r, b.memory, b.systemMessage, b.reflects, b.template, b.context⟩ := by
  unfold build at h
  split at h
  · cases h
  · split at h
    · cases h
    · split at h
      · cases h
      next r hr => exact ⟨r, hr, (Except.ok.inj h).symm⟩

end Blueprint

/-- An agent finds tools and handoffs by their names, and offers just these. -/
structure Agent.Registers (a : Agent) (tools : List Tool) (handoffs : List Handoff) : Prop where
  /-- What is looked up is what the index leads to. -/
  index : ∃ x, Registry.Index.build tools handoffs = .ok x ∧ x.Keeps a.registry
  /-- A name leads to the tool at its place. -/
  resolves : ∀ n tool, a.registry.get? n = some tool ↔ ∃ i : Nat,
    (tools.map (·.name) ++ handoffs.map (·.name))[i]? = some n ∧ (tools ++ handoffs.map Handoff.tool)[i]? = some tool
  resolvable : ∀ n, (a.registry.get? n).isSome ↔ n ∈ tools.map (·.name) ++ handoffs.map (·.name)
  handoff : ∀ n h, a.registry.handoff? n = some h ↔ h ∈ handoffs ∧ h.name = n
  /-- What is offered in the first request of a turn. -/
  offered : ∀ {σ : Type} (client : Client σ) (inputs : List ChatMessage) (t : Turn σ), t.inquiries = [] →
    ∀ q ∈ (a.turn client inputs t).2.inquiries.head?,
      q.request.toolNames = tools.map (·.name) ++ handoffs.map (·.name) ∧ q.request.toolNames.Nodup

theorem Agent.registers {a : Agent} {tools : List Tool} {handoffs : List Handoff}
    (h : Registry.build tools handoffs = .ok a.registry) : a.Registers tools handoffs := by
  have hindex := Registry.Index.build_keeps h
  obtain ⟨rfl, rfl⟩ := Registry.build_eq_ok_iff.1 h
  refine ⟨hindex, fun n tool => ?_, fun n => ?_, fun n h => Registry.handoff?_eq_some_iff,
    fun client inputs t ht q hq => ?_⟩
  · rw [← Registry.toolNames_eq]
    exact Registry.get?_eq_some_iff.trans (mem_named_iff Tool.name)
  · rw [← Registry.toolNames_eq, Option.isSome_iff_exists]
    simp only [Registry.get?_eq_some_iff, Registry.toolNames, List.mem_map]
  · have hnames : q.request.toolNames = a.registry.toolNames := by
      rw [Request.toolNames, a.turn_offers inputs ht q hq, Registry.offers, List.map_map]
      rfl
    rw [hnames, ← Registry.toolNames_eq]
    exact ⟨rfl, a.registry.toolNames_nodup⟩

namespace Blueprint

/-- **What an agent can be built from.** The names of its tools and handoffs must be distinct, all
together, and if there are any the client must be able to call functions. Then each name leads to
its tool, and to its handoff, and the model is offered every one, once and in order. Else the first
fault is given. -/
theorem build_registers (b : Blueprint) (c : Capabilities) :
    ((∃ a, b.build c = .ok a) ↔ (b.tools.map (·.name) ++ b.handoffs.map (·.name)).Nodup ∧
      (b.tools ≠ [] ∨ b.handoffs ≠ [] → c.functionCalling = true)) ∧
    (∀ a, b.build c = .ok a → a.Registers b.tools b.handoffs) ∧
    ∀ e, b.build c = .error e ↔ (b.faults c).head? = some e := by
  refine ⟨exists_build_iff.trans faults_eq_nil_iff, fun a h => ?_, fun _ => build_eq_error_iff⟩
  obtain ⟨r, hr, rfl⟩ := build_ok h
  exact Agent.registers hr

/-- The tool of a handoff is found behind the others. -/
theorem named_registers :
    let b : Blueprint := { named "clerk" with tools := [.echo], handoffs := [.forTarget "planner"] }
    ∃ a, b.build .usual = .ok a ∧ a.registry.get? "transfer_to_planner" = some (Handoff.forTarget "planner").tool ∧
      b.build .textOnly = .error .toolsUnsupported := by
  intro b
  obtain ⟨hbuild, hregisters, hrefused⟩ := build_registers b .usual
  obtain ⟨a, ha⟩ := hbuild.2 ⟨by decide, fun _ => rfl⟩
  exact ⟨a, ha, ((hregisters a ha).resolves _ _).2 ⟨1, rfl, rfl⟩, ((build_registers b .textOnly).2.2 _).2 rfl⟩

end Blueprint
end ToolAgent
