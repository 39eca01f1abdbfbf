/-
Where the multi-modal messages come from that a client without vision is shown.

Not from the inputs of turns: these are checked when a turn begins. A loaded state is taken
as it is, and so is what memory makes of the context. `Conversation.Brings` names these two
ways in; `Shown` is what runs keep.
-/
import ToolAgent.Proofs.Conversation
import ToolAgent.Proofs.Session
import ToolAgent.Proofs.Turn
import ToolAgent.Proofs.Window

namespace ToolAgent

variable {σ : Type}

def Message.isMultiModal : Message → Bool
  | .user content _ => content.isMultiModal
  | _ => false

/-- The multi-modal ones of some messages are all of a kind. -/
def MultiModalOnly (P : Message → Prop) (ms : List Message) : Prop := ∀ m ∈ ms, m.isMultiModal = true → P m

/-- In a turn in a state, one of the providers puts a message into the context it is let at, which
is not there yet. -/
def Agent.Recalls (a : Agent) (ps : List Provider) (t : Turn σ) (m : Message) : Prop :=
  ∃ before p after met, ps = before ++ p :: after ∧ a.augment before t = (.ok (), met) ∧
    m ∈ (p.update met.context met.clock).1 ∧ m ∉ met.context.messages

/-- An operation that is done to a conversation brings a message into the context, which is not
the agent's own, nor an input: memory does so in one of the turns, or it is in what is loaded. -/
inductive Conversation.Brings (a : Agent) (client : Client σ) (c : Conversation σ) (m : Message) :
    Operation → Prop
  | memory {memory now earlier inputs token later session instant} :
      c.session.left now (c.session.turns { a with memory := memory } client now earlier) = (session, instant) →
      client.capabilities.Sees inputs →
      { a with memory := memory }.Recalls memory
        ((Turn.start session.context session.client (token.clock instant)).given inputs) m →
      Brings a client c m (.turns memory now (earlier ++ (inputs, token) :: later))
  | load {t : Transcript} : m ∈ t.messages → Brings a client c m (.load t)
  | loadJson {v s} : SavedState.ofJson v = .ok s → m ∈ s.transcript.messages → Brings a client c m (.loadJson v)

namespace MultiModalOnly

variable {P : Message → Prop} {ms ns : List Message}

theorem append (h : MultiModalOnly P ms) (h' : MultiModalOnly P ns) : MultiModalOnly P (ms ++ ns) := by
  intro m hm
  rcases List.mem_append.1 hm with hm | hm
  · exact h m hm
  · exact h' m hm

theorem subset (h : MultiModalOnly P ms) (hs : ns ⊆ ms) : MultiModalOnly P ns := fun m hm => h m (hs hm)

theorem of_none (h : ∀ m ∈ ms, m.isMultiModal = false) : MultiModalOnly P ms := by
  intro m hm hp
  rw [h m hm] at hp
  cases hp

end MultiModalOnly

namespace Agent

variable {P : Message → Prop} {a : Agent} {client : Client σ}

/-! ## Turns -/

theorem systemMessages_multiModal (a : Agent) : ∀ m ∈ a.systemMessages, m.isMultiModal = false := by
  intro m hm
  obtain ⟨text, -, rfl⟩ : ∃ text, a.systemMessage = some text ∧ Message.system text = m := by
    simpa [systemMessages] using hm
  rfl

/-- Inputs that a model without vision takes are not multi-modal. -/
theorem stored_multiModal {inputs : List ChatMessage} (hv : client.capabilities.vision = false)
    (hs : client.capabilities.Sees inputs) : ∀ m ∈ inputs.map ChatMessage.stored, m.isMultiModal = false := by
  intro m hm
  obtain ⟨input, hi, rfl⟩ := List.mem_map.1 hm
  have hk : input.kind ≠ .multiModal := (hs.resolve_left (by simp [hv])) input hi
  cases input with
  | multiModal => exact absurd rfl hk
  | _ => rfl

theorem Recalls.cons {p : Provider} {ps : List Provider} {t t' : Turn σ} {m : Message}
    (hp : a.augment [p] t = (.ok (), t')) (h : a.Recalls ps t' m) : a.Recalls (p :: ps) t m := by
  obtain ⟨before, q, after, met, rfl, hmet, hm⟩ := h
  refine ⟨p :: before, q, after, met, rfl, ?_, hm⟩
  rw [augment_cons, hp]
  exact hmet

theorem augment_only : ∀ {ps : List Provider} {t : Turn σ},
    (∀ m, a.Recalls ps t m → m.isMultiModal = true → P m) → MultiModalOnly P t.context.messages →
      MultiModalOnly P (a.augment ps t).2.context.messages
  | [], _, _, h => h
  | p :: ps, t, hps, h => by
    have hp : MultiModalOnly P (p.update t.context t.clock).1 := by
      intro m hm hm'
      by_cases hold : m ∈ t.context.messages
      · exact h m hold hm'
      · exact hps m ⟨[], p, ps, t, rfl, rfl, hm, hold⟩ hm'
    have hone : (a.augment [p] t).2.context.messages = (p.update t.context t.clock).1 := by
      match hu : p.update t.context t.clock with
      | (messages, recalled, clock) => cases recalled <;> simp [augment, hu]
    rw [← hone] at hp
    rw [augment_cons]
    rcases ha : a.augment [p] t with ⟨stop | ⟨⟩, t'⟩
    · rwa [ha] at hp
    · rw [ha] at hp
      exact augment_only (fun m hm => hps m (hm.cons ha)) hp

/-- What a course stores is the agent's own. -/
theorem stored_own (a : Agent) (k : Course) : ∀ m ∈ k.stored a, m.isMultiModal = false := by
  cases k <;> simp [Course.stored, exchange, uttered, Message.isMultiModal]

/-- A turn shows the client no multi-modal messages but old ones and those that memory brings. -/
theorem turn_only (inputs : List ChatMessage) (t : Turn σ) (hv : client.capabilities.vision = false)
    (hps : client.capabilities.Sees inputs → ∀ m, a.Recalls a.memory (t.given inputs) m → m.isMultiModal = true → P m)
    (h : MultiModalOnly P t.context.messages) :
    MultiModalOnly P (a.turn client inputs t).2.context.messages ∧
      ∃ qs, (a.turn client inputs t).2.inquiries = t.inquiries ++ qs ∧
        ∀ q ∈ qs, MultiModalOnly P q.request.messages := by
  have hi := a.augment_inquiries a.memory (t.given inputs)
  have hg := a.turn_goes client inputs t
  generalize a.turn client inputs t = ended at hg ⊢
  have hgiven : client.capabilities.Sees inputs →
      MultiModalOnly P (a.augment a.memory (t.given inputs)).2.context.messages :=
    fun hs => augment_only (hps hs) (h.append (.of_none (stored_multiModal hv hs)))
  cases hg with
  | refused _ => exact ⟨h, [], by simp⟩
  | forgot hs hm =>
    rw [hm] at hi
    have hctx := hgiven hs
    rw [hm] at hctx
    exact ⟨hctx, [], hi.trans (List.append_nil _).symm, by simp⟩
  | @answered t₁ k t' hs hm hk =>
    rw [hm] at hi
    have hctx := hgiven hs
    rw [hm] at hctx
    have hafter : MultiModalOnly P t'.context.messages := by
      rw [hk.context]
      exact hctx.append (.of_none (a.stored_own k))
    obtain ⟨qs, hq, hshows, hcontexts⟩ := hk.inquiries
    refine ⟨hafter, qs, hq.trans (by rw [hi]; rfl), fun q hqs => ?_⟩
    have hcontext : MultiModalOnly P q.context.messages := by
      have hmem := hcontexts.subset (List.mem_map_of_mem hqs)
      rcases List.mem_cons.1 hmem with hc | hc
      · rwa [hc]
      · -- Behind a batch: the calls and their results have come in between.
        cases hb : k.round? with
        | none => simp [hb] at hc
        | some b =>
          have hc : q.context = t₁.context.addAll (a.exchange b) := by simpa [hb] using hc
          rw [hc]
          exact hctx.append (.of_none (by simp [exchange, uttered, Message.isMultiModal]))
    rw [hshows q hqs]
    exact .append (.of_none a.systemMessages_multiModal) (hcontext.subset q.context.visible_suffix.subset)

end Agent

namespace Conversation

variable {P : Message → Prop} {a : Agent} {client : Client σ}

/-! ## Runs -/

/-- The invariant of runs: the multi-modal messages that are stored, saved, or were shown to the client. -/
structure Shown (P : Message → Prop) (c : Conversation σ) : Prop where
  stored : MultiModalOnly P c.context.messages
  saved : ∀ s ∈ c.saved, MultiModalOnly P s.transcript.messages
  asked : ∀ e, .turn e ∈ c.log → ∀ q ∈ e.2.inquiries, MultiModalOnly P q.request.messages

theorem Shown.start (window : Window) (state : σ) : (start window state).Shown P :=
  ⟨by simp [MultiModalOnly, Conversation.start, context], by simp [Conversation.start],
    by simp [Conversation.start]⟩

theorem Shown.afterTurn {c : Conversation σ} (h : c.Shown P) (hv : client.capabilities.vision = false)
    (now : Nat) (inputs : List ChatMessage) (token : Token)
    (hps : client.capabilities.Sees inputs → ∀ m, a.Recalls a.memory
      ((Turn.start c.session.context c.session.client (token.clock now)).given inputs) m → m.isMultiModal = true → P m) :
    (c.afterTurn (c.session.turn a client now inputs token)).Shown P := by
  obtain ⟨hctx, qs, hq, hqs⟩ := Agent.turn_only inputs
    (.start c.session.context c.session.client (token.clock now)) hv hps h.stored
  refine ⟨hctx, h.saved, fun e he q hqe => ?_⟩
  rcases List.mem_cons.1 he with he | he
  · cases he
    rw [Session.turn, hq] at hqe
    exact hqs q hqe
  · exact h.asked e he q hqe

theorem Shown.turns (hv : client.capabilities.vision = false) :
    ∀ {turns : List (List ChatMessage × Token)} {now : Nat} {c : Conversation σ}, c.Shown P →
      (∀ earlier inputs token later, turns = earlier ++ (inputs, token) :: later →
        let left := c.session.left now (c.session.turns a client now earlier)
        client.capabilities.Sees inputs → ∀ m, a.Recalls a.memory
          ((Turn.start left.1.context left.1.client (token.clock left.2)).given inputs) m → m.isMultiModal = true → P m) →
      ((c.session.turns a client now turns).foldl Conversation.afterTurn c).Shown P
  | [], _, _, h, _ => h
  | (inputs, token) :: turns, now, c, h, hps => by
    have hfirst := h.afterTurn hv now inputs token (hps [] inputs token turns rfl)
    exact Shown.turns (c := c.afterTurn (c.session.turn a client now inputs token)) hv hfirst
      fun earlier inputs' token' later he => hps ((inputs, token) :: earlier) inputs' token' later (by rw [he]; rfl)

theorem Shown.perform {c : Conversation σ} {o : Operation} (h : c.Shown P)
    (hv : client.capabilities.vision = false) (ho : ∀ m, c.Brings a client m o → m.isMultiModal = true → P m) :
    (c.perform a client o).Shown P := by
  cases o with
  | turns memory now turns =>
    refine Shown.turns hv h fun earlier inputs token later he hs m hm => ho m ?_
    rw [he]
    exact .memory rfl hs hm
  | reset =>
    refine ⟨fun m hm => (nomatch hm), h.saved, fun e he => ?_⟩
    rcases List.mem_cons.1 he with he | he
    · cases he
    · exact h.asked e he
  | save =>
    refine ⟨h.stored, fun s hs => ?_, h.asked⟩
    rcases List.mem_cons.1 hs with rfl | hs
    · exact h.stored
    · exact h.saved s hs
  | restore i =>
    simp only [Conversation.perform]
    split
    · exact h
    next s hs => exact ⟨h.saved s (List.mem_of_getElem? hs), h.saved, h.asked⟩
  | load t => exact ⟨fun m hm => ho m (.load hm), h.saved, h.asked⟩
  | loadJson v =>
    simp only [Conversation.perform, Context.loadJson]
    cases hs : SavedState.ofJson v with
    | error e => exact h
    | ok s => exact ⟨fun m hm => ho m (.loadJson hs hm), h.saved, h.asked⟩

theorem Shown.run : ∀ {ops : List Operation} {c : Conversation σ}, c.Shown P →
    client.capabilities.vision = false →
    (∀ before o after, ops = before ++ o :: after → ∀ m, (c.run a client before).Brings a client m o →
      m.isMultiModal = true → P m) →
      (c.run a client ops).Shown P
  | [], _, h, _, _ => h
  | o :: ops, c, h, hv, ho =>
    have hc := h.perform hv (ho [] o ops rfl)
    show ((c.perform a client o).run a client ops).Shown P from
      Shown.run hc hv fun before o' after he => ho (o :: before) o' after (by rw [he]; rfl)

/-- **Multi-modal messages before a model without vision.** Whatever is done to an agent whose
model sees no pictures, a multi-modal message of a user in a request has been brought in on the
way there by a state that was loaded, or by memory. The inputs of turns bring none. -/
theorem run_multiModal (a : Agent) (client : Client σ) (hv : client.capabilities.vision = false)
    (window : Window) (state : σ) (ops : List Operation) :
    ∀ e, .turn e ∈ ((start window state).run a client ops).log → ∀ q ∈ e.2.inquiries,
      ∀ content source, .user content source ∈ q.request.messages → content.isMultiModal = true →
        ∃ before o after, ops = before ++ o :: after ∧
          ((start window state).run a client before).Brings a client (.user content source) o := by
  intro e he q hq content source hm hc
  have h : ((start window state).run a client ops).Shown fun m => ∃ before o after, ops = before ++ o :: after ∧
      ((start window state).run a client before).Brings a client m o :=
    (Shown.start window state).run hv fun before o after hsplit m hb _ => ⟨before, o, after, hsplit, hb⟩
  exact h.asked e he q hq _ hm hc

/-- A message with a picture. -/
def photo : Message := .user (.multiModal [.text "Look!", .image ⟨"image/png", "AAAA"⟩]) "user"

/-- A turn without pictures, with some memory. -/
def remark (memory : List Provider) : Operation := .turns memory 0 [([.text "Nice?" "user" none], .never)]

/-- The forecaster, whose model has no vision, shows it the picture. -/
def ShowsPhoto (ops : List Operation) : Prop :=
  ∃ e, .turn e ∈ ((start .all Replay.forecast).run .forecaster (Replay.client .usual) ops).log ∧
    ∃ q ∈ e.2.inquiries, photo ∈ q.request.messages

/-- It does so when a transcript or a state with the picture has been loaded, and when memory puts it there. -/
theorem photo_shown :
    (Replay.client .usual).capabilities.vision = false ∧ photo.isMultiModal = true ∧
      ShowsPhoto [.load ⟨[photo]⟩, remark []] ∧
      ShowsPhoto [.loadJson (SavedState.of ⟨[photo]⟩).toJson, remark []] ∧
      ShowsPhoto [remark [.scripted "album" [photo] false (.items [])]] := by
  refine ⟨rfl, rfl, ?_, ?_, ?_⟩
  · exact ⟨_, .head _, _, .head _, by decide⟩
  · exact ⟨_, .head _, _, .head _, by decide⟩
  · exact ⟨_, .head _, _, .head _, by decide⟩

theorem photo_brought :
    let ops : List Operation := [.load ⟨[photo]⟩, remark []]
    let started := start .all Replay.forecast
    (Replay.client .usual).capabilities.vision = false ∧ ∃ before o after, ops = before ++ o :: after ∧
      (started.run .forecaster (Replay.client .usual) before).Brings .forecaster (Replay.client .usual) photo o := by
  intro ops started
  have hv : (Replay.client .usual).capabilities.vision = false := rfl
  refine ⟨hv, ?_⟩
  exact run_multiModal .forecaster (Replay.client .usual) hv .all .forecast ops _ (.head _) _ (.head _)
    _ _ (by decide) rfl

end Conversation
end ToolAgent
