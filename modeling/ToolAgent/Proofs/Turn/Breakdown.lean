/-
Turns in which a collaborator breaks down.

Memory or the model may break down with any payload. A turn ends in a panic when one of
them does, and only then (`Agent.turn_panic`). A turn that ends well has all of its events
in its response (`Agent.turn_innerMessages`).
-/
import ToolAgent.Proofs.Turn
import ToolAgent.Proofs.Turn.Stages

namespace ToolAgent

variable {σ : Type} {a : Agent} {client : Client σ} {t t' : Turn σ} {payload : Payload}

namespace Agent

/-! ## Memory -/

/-- A provider, when it is its turn, breaks down. -/
inductive Forgets (ps : List Provider) (a : Agent) (t : Turn σ) (payload : Payload) : Prop
  | mk {before p after t₁} : ps = before ++ p :: after → a.augment before t = (.ok (), t₁) →
      (p.update t₁.context t₁.clock).2.1 = .panic payload → Forgets ps a t payload

theorem augment_single (a : Agent) (p : Provider) (t : Turn σ) (payload : Payload) :
    (a.augment [p] t).1 = .error (.panic payload) ↔ (p.update t.context t.clock).2.1 = .panic payload := by
  match hu : p.update t.context t.clock with
  | (messages, recalled, clock) => cases recalled <;> simp [augment, hu]

theorem augment_panic (a : Agent) : ∀ (ps : List Provider) (t : Turn σ),
    (a.augment ps t).1 = .error (.panic payload) ↔ Forgets ps a t payload
  | [], t => by
    constructor
    · intro h
      cases h
    · rintro ⟨hps, -, -⟩
      simp at hps
  | p :: ps, t => by
    have hp := a.augment_single p t payload
    match h : a.augment [p] t with
    | (.error stop, t₁) =>
      rw [h] at hp
      rw [a.augment_cons, h]
      refine ⟨fun he => ⟨(List.nil_append _).symm, rfl, hp.1 he⟩, ?_⟩
      rintro @⟨before, p', after, t₂, hps, hb, hf⟩
      cases before with
      | nil =>
        cases hb
        obtain ⟨rfl, -⟩ := List.cons.inj hps
        exact hp.2 hf
      | cons q before =>
        -- The providers before have come through, the first among them.
        obtain ⟨rfl, -⟩ := List.cons.inj hps
        rw [a.augment_cons, h] at hb
        cases hb
    | (.ok (), t₁) =>
      rw [h] at hp
      rw [a.augment_cons, h]
      refine (a.augment_panic ps t₁).trans ⟨?_, ?_⟩
      · rintro @⟨before, q, after, t₂, hps, hb, hf⟩
        have hbefore : a.augment (p :: before) t = (.ok (), t₂) := by
          rw [a.augment_cons, h]
          exact hb
        exact ⟨by rw [hps, List.cons_append], hbefore, hf⟩
      · rintro @⟨before, q, after, t₂, hps, hb, hf⟩
        cases before with
        | nil =>
          cases hb
          obtain ⟨rfl, -⟩ := List.cons.inj hps
          cases hp.2 hf
        | cons q' before =>
          obtain ⟨rfl, rfl⟩ := List.cons.inj hps
          rw [a.augment_cons, h] at hb
          exact ⟨rfl, hb, hf⟩

/-! ## The model -/

end Agent

theorem Reply.accepted_panic {r : Reply} : r.accepted = .error (.panic payload) ↔ r = .panic payload := by
  unfold Reply.accepted
  split <;> simp_all

theorem Ending.of_eq_error {outcome : Except Stop ChatMessage} {events : List Event} {stop : Stop} :
    Ending.of outcome events = .error stop ↔ outcome = .error stop := by
  cases outcome <;> simp [Ending.of, Except.map]

/-- In a turn so far the model has broken down. -/
def Turn.Fails (t : Turn σ) (payload : Payload) : Prop := ∃ q ∈ t.inquiries, q.reply = .panic payload

namespace Agent

theorem Asks.panic {tools : List ToolOffer} {r : Except Stop Inference} (h : a.Asks client tools t (r, t'))
    (ht : ¬ t.Fails payload) : r = .error (.panic payload) ↔ t'.Fails payload := by
  unfold Turn.Fails
  rcases h.inquiries with ⟨he, rfl⟩ | ⟨q, he, -, -, rfl⟩
  · rw [he]
    exact ⟨fun h => by simp at h, fun h => absurd h ht⟩
  · rw [Reply.accepted_panic, he]
    refine ⟨fun hq => ⟨q, by simp, hq⟩, ?_⟩
    rintro ⟨q', hq', hr⟩
    rcases List.mem_append.1 hq' with hq' | hq'
    · exact absurd ⟨q', hq', hr⟩ ht
    · rwa [← List.mem_singleton.1 hq']

theorem Batches.not_fails {b : Round} (h : a.Batches client t b t') (ht : ¬ t.Fails payload) :
    ¬ t'.Fails payload := by
  obtain ⟨ha⟩ := h
  exact fun hf => nomatch (ha.panic ht).2 hf

theorem Takes.panic {k : Course} (h : a.Takes client t k t') (ht : ¬ t.Fails payload) :
    k.outcome a = .error (.panic payload) ↔ t'.Fails payload := by
  cases h with
  | unanswered ha =>
    rw [← ha.panic ht]
    simp [Course.outcome]
  | told ha =>
    rw [← ha.panic ht]
    simp [Course.outcome]
  | @handedOver b t₁ h more hb hh =>
    have hf : (noteHandoffs (h :: more) t₁).Fails payload ↔ t₁.Fails payload := by
      rw [Turn.Fails, noteHandoffs_inquiries]
      rfl
    simp [hf, hb.not_fails ht, Course.outcome]
  | summarised hb _ _ => simp [hb.not_fails ht, Course.outcome]
  | unreflected hb _ _ ha =>
    rw [← ha.panic (hb.not_fails ht)]
    simp [Course.outcome]
  | reflected hb _ _ ha =>
    rw [← ha.panic (hb.not_fails ht)]
    simp [Course.outcome]
  | overreached hb _ _ ha =>
    rw [← ha.panic (hb.not_fails ht)]
    simp [Course.outcome]

/-! ## Whole turns -/

/-- A collaborator breaks down in a turn. -/
inductive BreaksDown (a : Agent) (client : Client σ) (inputs : List ChatMessage) (t : Turn σ)
    (payload : Payload) : Prop
  | memory : client.capabilities.Sees inputs → Forgets a.memory a (t.given inputs) payload →
      BreaksDown a client inputs t payload
  | model : (a.turn client inputs t).2.Fails payload → BreaksDown a client inputs t payload

variable {inputs : List ChatMessage}

/-- A turn ends in a panic when a collaborator breaks down, and only then. -/
theorem turn_panic (ht : t.inquiries = []) :
    (a.turn client inputs t).1 = .error (.panic payload) ↔ a.BreaksDown client inputs t payload := by
  have hnot : ∀ t' : Turn σ, t'.inquiries = t.inquiries → ¬ t'.Fails payload := by
    intro t' he
    simp [Turn.Fails, he, ht]
  have hmodel : a.BreaksDown client inputs t payload ↔
      (client.capabilities.Sees inputs ∧ Forgets a.memory a (t.given inputs) payload) ∨
        (a.turn client inputs t).2.Fails payload := by
    constructor
    · rintro (⟨hs, hf⟩ | hf)
      · exact .inl ⟨hs, hf⟩
      · exact .inr hf
    · rintro (⟨hs, hf⟩ | hf)
      · exact .memory hs hf
      · exact .model hf
  rw [hmodel, ← a.augment_panic]
  have hg := a.turn_goes client inputs t
  have hi := a.augment_inquiries a.memory (t.given inputs)
  generalize a.turn client inputs t = ended at hg ⊢
  cases hg with
  | refused hs => simp [hs, hnot t rfl]
  | forgot hs ha =>
    rw [ha] at hi
    simp [hs, ha, hnot _ hi]
  | answered hs ha hk =>
    rw [ha] at hi
    simp [ha, ← hk.panic (hnot _ hi), Ending.of_eq_error]

/-- A turn that ends well has all of its events in its response. -/
theorem turn_innerMessages {r : Response} (h : (a.turn client inputs t).1 = .ok r) :
    r.innerMessages = (a.turn client inputs t).2.events := by
  have hg := a.turn_goes client inputs t
  generalize a.turn client inputs t = ended at hg h
  cases hg with
  | refused | forgot => cases h
  | @answered t₁ k t' hs ha hk =>
    cases ho : k.outcome a with
    | error stop =>
      rw [ho] at h
      cases h
    | ok m =>
      rw [ho] at h
      cases h
      rfl

end Agent
end ToolAgent
