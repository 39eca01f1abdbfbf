/-
What decoders accept of values.

A value that is read as a record is an object or a list, and all that counts of it is what stands for
each of its fields (`parts?`): neither the order of an object's fields nor what else is in it. So what
a decoder makes of a value can be said of the value alone (`Decoder.Accepts`), for a record
(`Decoder.record_eq_ok_iff`) as well as for variants told apart by a key or by a tag.
-/
import ToolAgent.Proofs.Json.Decoding
import ToolAgent.Proofs.Registry

namespace ToolAgent.Json

/-- What a value has for each of the fields of a record. An object has it under their names, none of
which it has twice; a list has it in their order, and may leave out the last ones. -/
def parts? (v : Json) (names : List String) : Option (List (Option Json)) :=
  match v with
  | .object fs =>
    if ∀ name ∈ names, (fs.map (·.1)).count name ≤ 1 then some (names.map v.field?) else none
  | .array vs =>
    if vs.length ≤ names.length then
      some (vs.map some ++ List.replicate (names.length - vs.length) none)
    else none
  | _ => none

/-! ## Fields of objects -/

section Fields

variable {fs : List (String × Json)} {k name : String} {v : Json}

theorem field?_cons_self : (Json.object ((k, v) :: fs)).field? k = some v := by
  simp [field?]

theorem field?_cons_ne (h : k ≠ name) : (Json.object ((k, v) :: fs)).field? name = (Json.object fs).field? name := by
  simp [field?, h]

theorem field?_eq_none : (Json.object fs).field? name = none ↔ name ∉ fs.map (·.1) := by
  simp only [field?, Option.map_eq_none_iff, List.find?_eq_none, decide_eq_true_eq, List.mem_map]
  exact ⟨fun h ⟨f, hf, hn⟩ => h f hf hn, fun h f hf hn => h ⟨f, hf, hn⟩⟩

/-- A name that comes first comes once if it does not come again. -/
theorem count_cons_self : (((k, v) :: fs).map (·.1)).count k = 1 ↔ k ∉ fs.map (·.1) := by
  rw [List.map_cons, List.count_cons_self, Nat.add_eq_right, List.count_eq_zero]

theorem count_eq_one (hf : (Json.object fs).field? name = some v) (hc : (fs.map (·.1)).count name ≤ 1) :
    (fs.map (·.1)).count name = 1 := by
  have hm : name ∈ fs.map (·.1) := by
    by_contra hn
    rw [field?_eq_none.2 hn] at hf
    cases hf
  exact Nat.le_antisymm hc (List.count_pos_iff.2 hm)

end Fields

/-! ## Records by name -/

namespace Form

variable {α β : Type} {o : Origin} {fs : List (String × Json)}

/-- What a slot gets from the fields of an object: the field of its name, which is there once, or none
when it has a value already, or has one without. -/
inductive Gets (o : Origin) (fs : List (String × Json)) (name : String) (d : Decoder β) (absent : Option β) :
    Option β → β → Prop
  | given {v b} : (fs.map (·.1)).count name = 1 → (Json.object fs).field? name = some v → d o (.ofJson v) = .ok b →
      Gets o fs name d absent none b
  | left {held b} : name ∉ fs.map (·.1) → held.or absent = some b → Gets o fs name d absent held b

/-- The record that a form becomes of the fields of an object. -/
def Becomes (o : Origin) (fs : List (String × Json)) : {α : Type} → Form α → α → Prop
  | _, .done a', a => a' = a
  | _, .slot name d absent held rest, a =>
    ∃ b f, Gets o fs name d absent held b ∧ Becomes o fs rest f ∧ f b = a

theorem becomes_nil {form : Form α} {a : α} : form.Becomes o [] a ↔ form.close = .ok a := by
  induction form with
  | done a' => simp [Becomes, close]
  | slot name d absent held rest ih =>
    have hgets {b} : Gets o [] name d absent held b ↔ held.or absent = some b := by
      refine ⟨fun h => ?_, fun h => .left (by simp) h⟩
      cases h with
      | given hc => cases hc
      | left _ h => exact h
    simp only [Becomes, hgets, ih, close]
    cases held.or absent with
    | none => simp
    | some b =>
      cases rest.close with
      | error => simp
      | ok f => simp [eq_comm]

section Field

variable {k : String} {v : Json}

/-- A field of another name makes no difference to a slot. -/
theorem gets_cons_ne {name : String} {d : Decoder β} {absent held : Option β} {b : β} (hk : k ≠ name) :
    Gets o ((k, v) :: fs) name d absent held b ↔ Gets o fs name d absent held b := by
  have hcount : (((k, v) :: fs).map (·.1)).count name = (fs.map (·.1)).count name := List.count_cons_of_ne hk
  constructor
  · rintro (⟨hc, hf, hd⟩ | ⟨hn, hb⟩)
    · exact .given (hcount ▸ hc) (field?_cons_ne hk ▸ hf) hd
    · exact .left (fun hm => hn (List.mem_cons_of_mem _ hm)) hb
  · rintro (⟨hc, hf, hd⟩ | ⟨hn, hb⟩)
    · exact .given (hcount.trans hc) ((field?_cons_ne hk).trans hf) hd
    · exact .left (by simpa [Ne.symm hk] using hn) hb

/-- The field of its name fills a slot that has no value yet, unless it comes again. -/
theorem gets_cons_self {d : Decoder β} {absent held : Option β} {b : β} :
    Gets o ((k, v) :: fs) k d absent held b ↔
      held = none ∧ d o (.ofJson v) = .ok b ∧ k ∉ fs.map (·.1) := by
  constructor
  · rintro (⟨hc, hf, hd⟩ | ⟨hn, -⟩)
    · rw [field?_cons_self] at hf
      cases hf
      exact ⟨rfl, hd, count_cons_self.1 hc⟩
    · exact absurd (List.mem_cons_self ..) hn
  · rintro ⟨rfl, hd, hn⟩
    exact .given (count_cons_self.2 hn) field?_cons_self hd

theorem becomes_cons_unknown {form : Form α} {a : α} (hk : k ∉ form.names) :
    form.Becomes o ((k, v) :: fs) a ↔ form.Becomes o fs a := by
  induction form with
  | done => rfl
  | slot name d absent held rest ih =>
    rw [names, List.mem_cons, not_or] at hk
    simp only [Becomes, gets_cons_ne hk.1, ih hk.2]

/-- What a form becomes of a field and others is settled by what it makes of the offer. -/
theorem offer_becomes {form : Form α} (hform : form.names.Nodup) (fs : List (String × Json)) :
    match form.offer o k (.ofJson v) with
    | .unknown => ∀ a, form.Becomes o ((k, v) :: fs) a ↔ form.Becomes o fs a
    | .repeated | .failed _ => ∀ a, ¬ form.Becomes o ((k, v) :: fs) a
    | .filled form' => form'.names = form.names ∧ ∀ a, form.Becomes o ((k, v) :: fs) a ↔ form'.Becomes o fs a := by
  induction form with
  | done => simp only [offer]; exact fun _ => Iff.rfl
  | slot name d absent held rest ih =>
    rw [names, List.nodup_cons] at hform
    by_cases hname : name = k
    · subst hname
      have hrest {f} : rest.Becomes o ((name, v) :: fs) f ↔ rest.Becomes o fs f := becomes_cons_unknown hform.1
      cases held with
      | some b' => simp [offer, Becomes, gets_cons_self]
      | none =>
        cases hd : d o (.ofJson v) with
        | error e => simp [offer, Becomes, gets_cons_self, hd]
        | ok b =>
          have hgets {b'} : Gets o fs name d absent (some b) b' ↔ b = b' ∧ name ∉ fs.map (·.1) := by
            refine ⟨fun h => ?_, fun h => .left h.2 (congrArg some h.1)⟩
            cases h with
            | left hn hb => exact ⟨Option.some.inj hb, hn⟩
          simp [offer, hd, Becomes, gets_cons_self, hrest, hgets, names]
    · have hgets {b} : Gets o ((k, v) :: fs) name d absent held b ↔ Gets o fs name d absent held b :=
        gets_cons_ne (Ne.symm hname)
      have hrest := ih hform.2
      simp only [offer, if_neg hname]
      cases ho : rest.offer o k (.ofJson v) with
      | unknown =>
        rw [ho] at hrest
        simp only [Becomes, hgets, hrest, implies_true]
      | repeated | failed =>
        rw [ho] at hrest
        simp only [Becomes]
        rintro a ⟨b, f, -, hf, -⟩
        exact hrest f hf
      | filled rest' =>
        rw [ho] at hrest
        simp only [Becomes, names, hrest.1, hgets, hrest.2, implies_true, and_self]

end Field

/-- The members of an object fill a form with what it becomes of the fields. -/
theorem fill_eq_ok_iff (ho : o ≠ .text) {stop : Place} {a : α} : ∀ {fs : List (String × Json)} {form : Form α},
    form.names.Nodup → (form.fill o stop (Node.ofFields fs) = .ok a ↔ form.Becomes o fs a) := by
  intro fs
  induction fs with
  | nil =>
    intro form _
    rw [becomes_nil, Node.ofFields, fill]
    cases form.close <;> simp [misfit]
  | cons field fs ih =>
    intro form hform
    obtain ⟨k, v⟩ := field
    have hoffer := offer_becomes (o := o) (k := k) (v := v) hform fs
    simp only [Node.ofFields, fill, if_neg ho]
    cases h : form.offer o k (.ofJson v) with
    | unknown =>
      rw [h] at hoffer
      rw [hoffer a]
      exact ih hform
    | repeated | failed =>
      rw [h] at hoffer
      simpa [misfit] using hoffer a
    | filled form' =>
      rw [h] at hoffer
      rw [hoffer.2 a]
      exact ih (hoffer.1 ▸ hform)

/-! ## Records by parts -/

/-- No slot has a value yet. -/
def IsFresh : {α : Type} → Form α → Prop
  | _, .done _ => True
  | _, .slot _ _ _ held rest => held = none ∧ rest.IsFresh

/-- The record that a fresh form becomes of what there is for each of its slots. -/
def Makes (o : Origin) : {α : Type} → Form α → List (Option Json) → α → Prop
  | _, .done a', parts, a => parts = [] ∧ a' = a
  | _, .slot .., [], _ => False
  | _, .slot _ d absent _ rest, part :: parts, a =>
    ∃ b f, ((∃ v, part = some v ∧ d o (.ofJson v) = .ok b) ∨ part = none ∧ absent = some b) ∧
      rest.Makes o parts f ∧ f b = a

@[simp] theorem isFresh_done {a : α} : (Form.done a).IsFresh := trivial

@[simp] theorem isFresh_required {name : String} {d : Decoder β} {rest : Form (β → α)} :
    (required name d rest).IsFresh ↔ rest.IsFresh := by
  simp [required, IsFresh]

@[simp] theorem isFresh_defaulted {name : String} {d : Decoder β} {absent : β} {rest : Form (β → α)} :
    (defaulted name d absent rest).IsFresh ↔ rest.IsFresh := by
  simp [defaulted, IsFresh]

@[simp] theorem makes_done {a a' : α} {parts : List (Option Json)} :
    (Form.done a').Makes o parts a ↔ parts = [] ∧ a' = a := Iff.rfl

@[simp] theorem makes_required {name : String} {d : Decoder β} {rest : Form (β → α)} {parts : List (Option Json)}
    {a : α} : (required name d rest).Makes o parts a ↔
      ∃ v parts', parts = some v :: parts' ∧ ∃ b, d o (.ofJson v) = .ok b ∧ ∃ f, rest.Makes o parts' f ∧ f b = a := by
  cases parts with
  | nil => simp [required, Makes]
  | cons part parts => cases part <;> simp [required, Makes]

@[simp] theorem makes_defaulted {name : String} {d : Decoder β} {absent : β} {rest : Form (β → α)}
    {parts : List (Option Json)} {a : α} : (defaulted name d absent rest).Makes o parts a ↔
      ∃ part parts', parts = part :: parts' ∧
        ∃ b, ((∃ v, part = some v ∧ d o (.ofJson v) = .ok b) ∨ part = none ∧ b = absent) ∧
          ∃ f, rest.Makes o parts' f ∧ f b = a := by
  cases parts with
  | nil => simp [defaulted, Makes]
  | cons part parts => simp [defaulted, Makes, eq_comm]

theorem length_names : ∀ {α : Type} (form : Form α), form.names.length = form.size
  | _, .done _ => rfl
  | _, .slot _ _ _ _ rest => congrArg (· + 1) rest.length_names

/-- A fresh form becomes of fields what it makes of those of its names, if none comes twice. -/
theorem becomes_iff {form : Form α} {a : α} (hform : form.IsFresh) : form.Becomes o fs a ↔
    (∀ name ∈ form.names, (fs.map (·.1)).count name ≤ 1) ∧
      form.Makes o (form.names.map (Json.object fs).field?) a := by
  induction form with
  | done => simp [Becomes, Makes, names]
  | slot name d absent held rest ih =>
    obtain ⟨rfl, hrest⟩ := hform
    have hgets {b} : Gets o fs name d absent none b ↔ (fs.map (·.1)).count name ≤ 1 ∧
        ((∃ v, (Json.object fs).field? name = some v ∧ d o (.ofJson v) = .ok b) ∨
          (Json.object fs).field? name = none ∧ absent = some b) := by
      constructor
      · rintro (⟨hc, hf, hd⟩ | ⟨hn, hb⟩)
        · exact ⟨Nat.le_of_eq hc, .inl ⟨_, hf, hd⟩⟩
        · exact ⟨by rw [List.count_eq_zero.2 hn]; exact Nat.zero_le _, .inr ⟨field?_eq_none.2 hn, hb⟩⟩
      · rintro ⟨hc, ⟨v, hf, hd⟩ | ⟨hf, hb⟩⟩
        · exact .given (count_eq_one hf hc) hf hd
        · exact .left (field?_eq_none.1 hf) hb
    simp only [Becomes, hgets, ih hrest, names, List.map_cons, Makes, List.forall_mem_cons]
    constructor
    · rintro ⟨b, f, ⟨hc, hb⟩, ⟨hall, hf⟩, ha⟩
      exact ⟨⟨hc, hall⟩, b, f, hb, hf, ha⟩
    · rintro ⟨⟨hc, hall⟩, b, f, hb, hf, ha⟩
      exact ⟨b, f, ⟨hc, hb⟩, ⟨hall, hf⟩, ha⟩

/-- Fields without a slot make no difference to a form. -/
theorem becomes_filter {form : Form α} {a : α} {name : String} (hn : name ∉ form.names) (hform : form.IsFresh) :
    form.Becomes o (fs.filter (·.1 ≠ name)) a ↔ form.Becomes o fs a := by
  have hkeys : (fs.filter (·.1 ≠ name)).map (·.1) = (fs.map (·.1)).filter (· ≠ name) := by
    rw [List.filter_map]
    rfl
  have hcount {k} (hk : k ∈ form.names) :
      ((fs.filter (·.1 ≠ name)).map (·.1)).count k = (fs.map (·.1)).count k := by
    rw [hkeys, List.count_filter]
    simpa using ne_of_mem_of_not_mem hk hn
  have hfield : form.names.map (Json.object (fs.filter (·.1 ≠ name))).field? =
      form.names.map (Json.object fs).field? := by
    refine List.map_congr_left fun k hk => ?_
    have hne : k ≠ name := ne_of_mem_of_not_mem hk hn
    simp only [field?, List.find?_filter]
    congr 2
    funext f
    by_cases hf : f.1 = k
    · simp [hf, hne]
    · simp [hf]
  rw [becomes_iff hform, becomes_iff hform, hfield]
  exact and_congr_left' (forall₂_congr fun k hk => by rw [hcount hk])

section Slot

variable {name : String} {d : Decoder β} {absent held : Option β} {form : Form (β → α)} {due : String}
  {stop : Place} {i : Nat} {a : α} {n : Node} {ns rest : List Node}

theorem fillInOrder_slot_nil : (slot name d absent held form).fillInOrder o due stop i [] = .ok (a, rest) ↔
    ∃ b f, absent = some b ∧ form.fillInOrder o due stop (i + 1) [] = .ok (f, rest) ∧ f b = a := by
  cases absent with
  | none => simp [fillInOrder, misfit]
  | some b =>
    simp only [fillInOrder]
    cases form.fillInOrder o due stop (i + 1) [] with
    | error e => simp
    | ok x => simp [Prod.ext_iff, and_comm]

theorem fillInOrder_slot_cons : (slot name d absent held form).fillInOrder o due stop i (n :: ns) = .ok (a, rest) ↔
    ∃ b f, d o n = .ok b ∧ form.fillInOrder o due stop (i + 1) ns = .ok (f, rest) ∧ f b = a := by
  cases hd : d o n with
  | error e => simp [fillInOrder, hd]
  | ok b =>
    simp only [fillInOrder, hd]
    cases form.fillInOrder o due stop (i + 1) ns with
    | error e => simp
    | ok x => simp [Prod.ext_iff, and_comm]

end Slot

/-- Items fill the slots of a form as parts in their order. What is left of them is handed back. -/
theorem fillInOrder_eq_ok_iff {due : String} {stop : Place} {rest : List Node} :
    ∀ {α : Type} {form : Form α} {i : Nat} {vs : List Json} {a : α},
      form.fillInOrder o due stop i (Node.ofItems vs) = .ok (a, rest) ↔
        rest = Node.ofItems (vs.drop form.size) ∧
          form.Makes o ((vs.take form.size).map some ++ List.replicate (form.size - vs.length) none) a := by
  intro α form
  induction form with
  | done a' =>
    intro i vs a
    simp [fillInOrder, size, Makes, eq_comm, and_comm]
  | slot name d absent held form ih =>
    intro i vs a
    cases vs with
    | nil =>
      have hrest {f} := @ih (i + 1) [] f
      simp only [Node.ofItems, List.drop_nil, List.take_nil, List.map_nil, List.nil_append, List.length_nil,
        Nat.sub_zero, size, fillInOrder_slot_nil, List.replicate_succ, Makes, reduceCtorEq, false_and, exists_false,
        false_or, true_and] at hrest ⊢
      simp only [hrest]
      constructor
      · rintro ⟨b, f, hb, ⟨hleft, hf⟩, ha⟩
        exact ⟨hleft, b, f, hb, hf, ha⟩
      · rintro ⟨hleft, b, f, hb, hf, ha⟩
        exact ⟨b, f, hb, ⟨hleft, hf⟩, ha⟩
    | cons v vs =>
      simp only [Node.ofItems, fillInOrder_slot_cons, ih, size, List.drop_succ_cons, List.take_succ_cons,
        List.map_cons, List.cons_append, List.length_cons, Nat.add_sub_add_right, Makes, Option.some.injEq,
        exists_eq_left', reduceCtorEq, false_and, or_false]
      constructor
      · rintro ⟨b, f, hb, ⟨hleft, hf⟩, ha⟩
        exact ⟨hleft, b, f, hb, hf, ha⟩
      · rintro ⟨hleft, b, f, hb, hf, ha⟩
        exact ⟨b, f, hb, ⟨hleft, hf⟩, ha⟩

theorem readList_eq_ok_iff {title : String} {stop : Place} {form : Form α} {vs : List Json} {a : α} :
    form.readList o title stop (Node.ofItems vs) = .ok a ↔ vs.length ≤ form.size ∧
      form.Makes o (vs.map some ++ List.replicate (form.size - vs.length) none) a := by
  have hfill {a rest} : form.fillInOrder o (title ++ " with " ++ elements form.size) stop 0 (Node.ofItems vs) =
        .ok (a, rest) ↔
      rest = Node.ofItems (vs.drop form.size) ∧
        form.Makes o ((vs.take form.size).map some ++ List.replicate (form.size - vs.length) none) a :=
    fillInOrder_eq_ok_iff
  constructor
  · intro h
    rw [readList] at h
    split at h
    · cases h
    next a' hf =>
      cases h
      obtain ⟨hnil, hmakes⟩ := hfill.1 hf
      have hlen : vs.length ≤ form.size := by
        rw [Node.ofItems_eq] at hnil
        exact List.drop_eq_nil_iff.1 (List.map_eq_nil_iff.1 hnil.symm)
      rw [List.take_of_length_le hlen] at hmakes
      exact ⟨hlen, hmakes⟩
    next n rest hf => cases o <;> cases h
  · rintro ⟨hlen, hmakes⟩
    have hf := hfill.2 ⟨rfl, by rwa [List.take_of_length_le hlen]⟩
    rw [List.drop_of_length_le hlen] at hf
    rw [readList, hf]
    rfl

end Form

theorem Node.ofItems_values {vs : List Json} (h : ∀ v ∈ vs, ∃ w, (Node.ofJson v).value = .ok w) :
    ∃ ws, Node.values (Node.ofItems vs) = .ok ws := by
  induction vs with
  | nil => exact ⟨[], rfl⟩
  | cons v vs ih =>
    obtain ⟨w, hw⟩ := h v (by simp)
    obtain ⟨ws, hws⟩ := ih fun u hu => h u (List.mem_cons_of_mem v hu)
    exact ⟨w :: ws, by simp only [Node.ofItems, Node.values, hw, hws]⟩

/-- A tree that came from a value has one. -/
theorem Node.ofJson_value (v : Json) : ∃ w, (Node.ofJson v).value = .ok w := by
  induction v using tree_induct with
  | null | bool | number | string => exact ⟨_, rfl⟩
  | array vs ih =>
    obtain ⟨ws, hws⟩ := Node.ofItems_values ih
    exact ⟨.array ws, by simp only [Node.ofJson, Node.value, Node.enter_ok (Nat.zero_le _), hws]⟩
  | object fs ih =>
    obtain ⟨gs, hgs⟩ : ∃ gs, Node.fields (Node.ofFields fs) = .ok gs := by
      induction fs with
      | nil => exact ⟨_, rfl⟩
      | cons f fs ihs =>
        obtain ⟨w, hw⟩ := ih f (by simp)
        obtain ⟨gs, hgs⟩ := ihs fun g hg => ih g (List.mem_cons_of_mem f hg)
        exact ⟨(f.1, w) :: gs, by simp only [Node.ofFields, Node.fields, hw, hgs]⟩
    exact ⟨.object (sortFields gs), by simp only [Node.ofJson, Node.value, Node.enter_ok (Nat.zero_le _), hgs]⟩

/-! ## Decoders -/

namespace Decoder

/-- What the decoder makes of a value is what the value stands for. -/
def Accepts {α : Type} (d : Decoder α) (stands : α → Json → Prop) : Prop :=
  ∀ o, o ≠ .text → ∀ v a, d o (.ofJson v) = .ok a ↔ stands a v

namespace Accepts

variable {α β : Type} {d : Decoder α} {stands : α → Json → Prop}

theorem string : Decoder.string.Accepts fun s v => v = .string s := by
  intro o _ v s
  cases v <;> simp [Decoder.string, Node.ofJson, wrongType]

theorem bool : Decoder.bool.Accepts fun b v => v = .bool b := by
  intro o _ v b
  cases v <;> simp [Decoder.bool, Node.ofJson, wrongType]

theorem word : Decoder.word.Accepts fun w v => v = .int w.toNat := by
  intro o _ v w
  cases v with
  | number n =>
    cases n with
    | float x => simp [Decoder.word, Node.ofJson, wrongType, Json.int]
    | int i =>
      have hw : w.toNat < Word.count := w.toNat_lt
      simp only [Decoder.word, Node.ofJson, Json.int, Json.number.injEq, Number.int.injEq]
      split
      next hi =>
        have hnat : (UInt64.ofNat i.toNat).toNat = i.toNat := UInt64.toNat_ofNat_of_lt (by
          have hcount : Word.count = UInt64.size := rfl
          omega)
        rw [Except.ok.injEq, ← UInt64.toNat_inj, hnat]
        omega
      next hi =>
        refine iff_of_false (by simp [misfit]) fun h => hi ?_
        constructor <;> omega
  | _ => simp [Decoder.word, Node.ofJson, wrongType, Json.int]

theorem map (h : d.Accepts stands) (f : α → β) : (d.map f).Accepts fun b v => ∃ a, f a = b ∧ stands a v := by
  intro o ho v b
  simp only [← h o ho v, Decoder.map]
  cases d o (.ofJson v) <;> simp

/-- Null is absence, so what is not absent must not be null. -/
theorem optional (h : d.Accepts stands) (hnull : ∀ a, ¬ stands a .null) :
    (Decoder.optional d).Accepts fun x v => match x with
      | none => v = .null
      | some a => stands a v := by
  intro o ho v x
  have hd {a} := h o ho v a
  cases v with
  | null => cases x <;> simp [Decoder.optional, Node.ofJson, hnull]
  | _ =>
    simp only [Node.ofJson] at hd
    cases x <;> simp only [Decoder.optional, Node.ofJson, ← hd] <;> split <;> simp_all

theorem items (h : d.Accepts stands) {o : Origin} (ho : o ≠ .text) : ∀ {vs : List Json} {as : List α},
    Decoder.items d o (Node.ofItems vs) = .ok as ↔ List.Forall₂ stands as vs
  | [], as => by simp [Node.ofItems, Decoder.items, List.forall₂_nil_right_iff, eq_comm]
  | v :: vs, as => by
    have hd {a} := h o ho v a
    have hrest {as} : Decoder.items d o (Node.ofItems vs) = .ok as ↔ List.Forall₂ stands as vs := items h ho
    simp only [Node.ofItems, Decoder.items, List.forall₂_cons_right_iff, ← hd, ← hrest]
    cases d o (.ofJson v) with
    | error => simp
    | ok a => cases Decoder.items d o (Node.ofItems vs) <;> simp [eq_comm]

theorem enter_ok {o : Origin} (ho : o ≠ .text) (span : Span) (level : Nat) : enter o span level = .ok () := if_neg ho

theorem list (h : d.Accepts stands) :
    (Decoder.list d).Accepts fun as v => ∃ vs, v = .array vs ∧ List.Forall₂ stands as vs := by
  intro o ho v as
  cases v with
  | array vs => simp only [Decoder.list, Node.ofJson, enter_ok ho, h.items ho, Json.array.injEq, exists_eq_left']
  | _ => simp [Decoder.list, Node.ofJson, wrongType]

end Accepts

variable {α : Type} {o : Origin} {v : Json} {a : α}

/-- A record is read from what a value has for its fields. -/
theorem record_eq_ok_iff (ho : o ≠ .text) {name : String} {form : Form α} (hnames : form.names.Nodup)
    (hfresh : form.IsFresh) : Decoder.record name form o (.ofJson v) = .ok a ↔
      ∃ parts, v.parts? form.names = some parts ∧ form.Makes o parts a := by
  cases v with
  | object fs =>
    simp only [Decoder.record, Node.ofJson, Accepts.enter_ok ho, Form.fill_eq_ok_iff ho hnames,
      Form.becomes_iff hfresh, parts?, Option.ite_none_right_eq_some, Option.some.injEq]
    constructor
    · rintro ⟨hall, h⟩
      exact ⟨_, ⟨hall, rfl⟩, h⟩
    · rintro ⟨_, ⟨hall, rfl⟩, h⟩
      exact ⟨hall, h⟩
  | array vs =>
    simp only [Decoder.record, Node.ofJson, Accepts.enter_ok ho, Form.readList_eq_ok_iff, parts?,
      Form.length_names, Option.ite_none_right_eq_some, Option.some.injEq]
    constructor
    · rintro ⟨hlen, h⟩
      exact ⟨_, ⟨hlen, rfl⟩, h⟩
    · rintro ⟨_, ⟨hlen, rfl⟩, h⟩
      exact ⟨hlen, h⟩
  | _ => simp [Decoder.record, Node.ofJson, wrongType, parts?]

theorem Variants.find_eq_ok_iff {vs : Variants α} (hvs : (vs.map (·.1)).Nodup) {name : String} {d : Decoder α} :
    vs.find name = .ok d ↔ (name, d) ∈ vs := by
  have hfind {f : String × Decoder α} : vs.find? (·.1 = name) = some f ↔ f ∈ vs ∧ f.1 = name :=
    find?_name_iff (fun f : String × Decoder α => f.1) hvs
  rw [Variants.find]
  cases h : vs.find? (·.1 = name) with
  | none =>
    simp only [reduceCtorEq, false_iff]
    intro hd
    rw [hfind.2 ⟨hd, rfl⟩] at h
    cases h
  | some f =>
    obtain ⟨k, d'⟩ := f
    obtain ⟨hf, rfl⟩ := hfind.1 h
    rw [Except.ok.injEq]
    refine ⟨fun heq => heq ▸ hf, fun hd => ?_⟩
    rw [hfind.2 ⟨hd, rfl⟩] at h
    exact (congrArg Prod.snd (Option.some.inj h)).symm

/-- A variant with contents is an object whose only key names it. -/
theorem keyed_eq_ok_iff (ho : o ≠ .text) {vs : Variants α} (hvs : (vs.map (·.1)).Nodup) :
    Decoder.keyed vs o (.ofJson v) = .ok a ↔
      ∃ f ∈ vs, ∃ w, v = .object [(f.1, w)] ∧ f.2 o (.ofJson w) = .ok a := by
  simp only [Prod.exists, ← Variants.find_eq_ok_iff hvs]
  cases v with
  | object fs =>
    match fs, o with
    | _, .text => exact absurd rfl ho
    | [], .value | [], .setAside => simp [Decoder.keyed, Node.ofJson, Node.ofFields]
    | (k, w) :: f :: fs, .value | (k, w) :: f :: fs, .setAside => simp [Decoder.keyed, Node.ofJson, Node.ofFields]
    | [(k, w)], .value | [(k, w)], .setAside =>
      cases hd : vs.find k <;> simp [Decoder.keyed, Node.ofJson, Node.ofFields, hd]
  | string s =>
    simp only [Decoder.keyed, Node.ofJson]
    cases vs.find s <;> simp [misfit]
  | _ => cases o <;> simp_all [Decoder.keyed, Node.ofJson, wrongType]

/-! ## Variants told apart by a tag -/

theorem Accepts.tagName {tags : List String} : (tagName tags).Accepts fun tag v => v = .string tag ∧ tag ∈ tags := by
  intro o _ v tag
  cases v with
  | string s =>
    simp only [Decoder.tagName, Node.ofJson, Json.string.injEq]
    split
    next hs =>
      rw [Except.ok.injEq]
      exact ⟨fun h => ⟨h, h ▸ hs⟩, fun h => h.1⟩
    next hs =>
      refine iff_of_false (by simp [misfit]) ?_
      rintro ⟨rfl, h⟩
      exact hs h
  | _ => simp [Decoder.tagName, Node.ofJson, wrongType]

section SplitTag

variable {tags : List String} {tag : String} {fs : List (String × Json)} {k : String}
  {found : Option String} {others : List (Label × Node)}

theorem splitTag_cons_type :
    splitTag o tags none (Node.ofFields (("type", v) :: fs)) =
      match tagName tags o (.ofJson v) with
      | .error e => .error e
      | .ok name => splitTag o tags (some name) (Node.ofFields fs) := rfl

theorem splitTag_cons_ne (hk : k ≠ "type") :
    splitTag o tags found (Node.ofFields ((k, v) :: fs)) =
      match splitTag o tags found (Node.ofFields fs) with
      | .error e => .error e
      | .ok (found, others) => .ok (found, (Node.label k, Node.ofJson v) :: others) := by
  obtain ⟨w, hw⟩ := Node.ofJson_value v
  simp only [Node.ofFields, splitTag, hw]
  rfl

/-- Behind a tag there must be none. -/
theorem splitTag_tagged : splitTag o tags (some tag) (Node.ofFields fs) = .ok (found, others) ↔
    "type" ∉ fs.map (·.1) ∧ found = some tag ∧ others = Node.ofFields fs := by
  induction fs generalizing found others with
  | nil => simp [Node.ofFields, splitTag, eq_comm]
  | cons f fs ih =>
    obtain ⟨k, v⟩ := f
    by_cases hk : k = "type"
    · subst hk
      simp [Node.ofFields, splitTag, misfit]
    · have hcons : Node.ofFields ((k, v) :: fs) = (Node.label k, Node.ofJson v) :: Node.ofFields fs := rfl
      rw [splitTag_cons_ne hk, hcons, List.map_cons, List.mem_cons, not_or]
      constructor
      · intro h
        split at h
        next => cases h
        next hsplit =>
          cases h
          obtain ⟨hn, rfl, rfl⟩ := ih.1 hsplit
          exact ⟨⟨Ne.symm hk, hn⟩, rfl, rfl⟩
      · rintro ⟨⟨-, hn⟩, rfl, rfl⟩
        rw [ih.2 ⟨hn, rfl, rfl⟩]

/-- The tag is there once and known, and what it is parted from are the other fields. -/
theorem splitTag_eq_ok_iff (ho : o ≠ .text) :
    splitTag o tags none (Node.ofFields fs) = .ok (some tag, others) ↔
      (tag ∈ tags ∧ (fs.map (·.1)).count "type" = 1 ∧ (Json.object fs).field? "type" = some (.string tag)) ∧
        others = Node.ofFields (fs.filter (·.1 ≠ "type")) := by
  induction fs generalizing others with
  | nil => simp [Node.ofFields, splitTag]
  | cons f fs ih =>
    obtain ⟨k, v⟩ := f
    by_cases hk : k = "type"
    · subst hk
      have htag {t} : Decoder.tagName tags o (.ofJson v) = .ok t ↔ v = .string t ∧ t ∈ tags :=
        Accepts.tagName o ho v t
      have hothers : "type" ∉ fs.map (·.1) → (("type", v) :: fs).filter (·.1 ≠ "type") = fs := by
        intro hn
        rw [List.filter_cons_of_neg (by simp), List.filter_eq_self]
        intro g hg
        have hne : g.1 ≠ "type" := fun heq => hn (heq ▸ List.mem_map_of_mem hg)
        simpa using hne
      rw [count_cons_self, field?_cons_self, Option.some.injEq, splitTag_cons_type]
      constructor
      · intro h
        split at h
        next => cases h
        next t ht =>
          obtain ⟨hn, heq, rfl⟩ := splitTag_tagged.1 h
          cases heq
          obtain ⟨rfl, hmem⟩ := htag.1 ht
          exact ⟨⟨hmem, hn, rfl⟩, by rw [hothers hn]⟩
      · rintro ⟨⟨hmem, hn, rfl⟩, rfl⟩
        rw [htag.2 ⟨rfl, hmem⟩]
        exact splitTag_tagged.2 ⟨hn, rfl, by rw [hothers hn]⟩
    · have hcount : (((k, v) :: fs).map (·.1)).count "type" = (fs.map (·.1)).count "type" := List.count_cons_of_ne hk
      have hothers : ((k, v) :: fs).filter (·.1 ≠ "type") = (k, v) :: fs.filter (·.1 ≠ "type") :=
        List.filter_cons_of_pos (by simpa using hk)
      rw [splitTag_cons_ne hk, hcount, hothers, field?_cons_ne hk]
      constructor
      · intro h
        split at h
        next => cases h
        next hsplit =>
          cases h
          obtain ⟨htag, rfl⟩ := ih.1 hsplit
          exact ⟨htag, rfl⟩
      · rintro ⟨htag, rfl⟩
        rw [ih.2 ⟨htag, rfl⟩]
        rfl

end SplitTag

/-- The form of each variant, by tag. -/
def Tagged.forms : Tagged α → List (String × Form α)
  | .nil => []
  | .cons tag _ form rest => (tag, form) :: rest.forms

@[simp] theorem Tagged.forms_nil : (Tagged.nil : Tagged α).forms = [] := rfl

@[simp] theorem Tagged.forms_cons {tag title : String} {form : Form α} {rest : Tagged α} :
    (Tagged.cons tag title form rest).forms = (tag, form) :: rest.forms := rfl

theorem Tagged.tags_eq : ∀ vs : Tagged α, vs.tags = vs.forms.map (·.1)
  | .nil => rfl
  | .cons tag _ _ rest => congrArg (tag :: ·) rest.tags_eq

section Variant

variable {tag : String} {form : Form α} {vs : Tagged α}

theorem Tagged.mem_tags (h : (tag, form) ∈ vs.forms) : tag ∈ vs.tags := by
  rw [vs.tags_eq]
  exact List.mem_map_of_mem h

theorem Tagged.exists_form (h : tag ∈ vs.tags) : ∃ form, (tag, form) ∈ vs.forms := by
  rw [vs.tags_eq] at h
  obtain ⟨⟨_, form⟩, hmem, rfl⟩ := List.mem_map.1 h
  exact ⟨form, hmem⟩

theorem Tagged.read_object (htags : vs.tags.Nodup) (h : (tag, form) ∈ vs.forms) {span : Span} {level : Nat}
    {ms : List (Label × Node)} :
    vs.read tag (.object span level ms) = some (form.fill .setAside span.stop ms) := by
  induction vs with
  | nil => cases h
  | cons other title otherForm rest ih =>
    rw [Tagged.tags, List.nodup_cons] at htags
    obtain heq | h := List.mem_cons.1 h
    · cases heq
      rw [Tagged.read, if_pos rfl]
    · rw [Tagged.read, if_neg (ne_of_mem_of_not_mem (Tagged.mem_tags h) htags.1).symm, ih htags.2 h]

theorem Tagged.read_array (htags : vs.tags.Nodup) (h : (tag, form) ∈ vs.forms) (span : Span) (level : Nat)
    (ns : List Node) :
    ∃ title, vs.read tag (.array span level ns) = some (form.readList .setAside title span.stop ns) := by
  induction vs with
  | nil => cases h
  | cons other title otherForm rest ih =>
    rw [Tagged.tags, List.nodup_cons] at htags
    obtain heq | h := List.mem_cons.1 h
    · cases heq
      exact ⟨"struct variant " ++ title, by rw [Tagged.read, if_pos rfl]⟩
    · rw [Tagged.read, if_neg (ne_of_mem_of_not_mem (Tagged.mem_tags h) htags.1).symm]
      exact ih htags.2 h

/-- A record with a tag is read from what a value has for the tag and for the fields of its variant. -/
theorem tagged_eq_ok_iff (ho : o ≠ .text) {name : String} (htags : vs.tags.Nodup)
    (hforms : ∀ f ∈ vs.forms, ("type" :: f.2.names).Nodup ∧ f.2.IsFresh) :
    Decoder.tagged name vs o (.ofJson v) = .ok a ↔ ∃ f ∈ vs.forms,
      ∃ parts, v.parts? ("type" :: f.2.names) = some (some (.string f.1) :: parts) ∧ f.2.Makes .setAside parts a := by
  have haside : Origin.setAside ≠ .text := nofun
  cases v with
  | object fs =>
    simp only [Decoder.tagged, Node.ofJson, Accepts.enter_ok ho, parts?, Option.ite_none_right_eq_some,
      Option.some.injEq, List.map_cons, List.cons.injEq, List.forall_mem_cons]
    have hmakes {tag : String} {form : Form α} (h : (tag, form) ∈ vs.forms) :
        form.fill .setAside Span.nowhere.stop (Node.ofFields (fs.filter (·.1 ≠ "type"))) = .ok a ↔
          (∀ name ∈ form.names, (fs.map (·.1)).count name ≤ 1) ∧
            form.Makes .setAside (form.names.map (Json.object fs).field?) a := by
      obtain ⟨hnames, hfresh⟩ := hforms _ h
      rw [List.nodup_cons] at hnames
      rw [Form.fill_eq_ok_iff haside hnames.2, Form.becomes_filter hnames.1 hfresh, Form.becomes_iff hfresh]
    constructor
    · intro h
      split at h
      next => cases h
      next => cases h
      next tag others hsplit =>
        obtain ⟨⟨hmem, hcount, hfield⟩, rfl⟩ := (splitTag_eq_ok_iff ho).1 hsplit
        obtain ⟨form, hform⟩ := Tagged.exists_form hmem
        rw [Tagged.read_object htags hform] at h
        obtain ⟨hcounts, hmade⟩ := (hmakes hform).1 h
        exact ⟨_, hform, _, ⟨⟨Nat.le_of_eq hcount, hcounts⟩, hfield, rfl⟩, hmade⟩
    · rintro ⟨⟨tag, form⟩, hform, parts, ⟨⟨hcount, hcounts⟩, hfield, rfl⟩, hmade⟩
      rw [(splitTag_eq_ok_iff ho).2 ⟨⟨Tagged.mem_tags hform, count_eq_one hfield hcount, hfield⟩, rfl⟩]
      simp only [Tagged.read_object htags hform, (hmakes hform).2 ⟨hcounts, hmade⟩]
  | array vs' =>
    cases vs' with
    | nil =>
      simp only [Decoder.tagged, Node.ofJson, Node.ofItems, Accepts.enter_ok ho, misfit, parts?, reduceCtorEq,
        false_iff]
      rintro ⟨f, -, parts, hparts, -⟩
      cases (Option.ite_none_right_eq_some.1 hparts).2
    | cons w ws =>
      have htag {t} : Decoder.tagName vs.tags o (.ofJson w) = .ok t ↔ w = .string t ∧ t ∈ vs.tags :=
        Accepts.tagName o ho w t
      obtain ⟨values, hvalues⟩ := Node.ofItems_values fun u (_ : u ∈ ws) => Node.ofJson_value u
      simp only [Decoder.tagged, Node.ofJson, Node.ofItems, Accepts.enter_ok ho, hvalues, parts?,
        Option.ite_none_right_eq_some, Option.some.injEq, List.map_cons, List.cons_append, List.cons.injEq,
        List.length_cons, Nat.add_le_add_iff_right, Nat.add_sub_add_right, Form.length_names]
      constructor
      · intro h
        split at h
        next => cases h
        next tag ht =>
          obtain ⟨rfl, hmem⟩ := htag.1 ht
          obtain ⟨form, hform⟩ := Tagged.exists_form hmem
          obtain ⟨title, hread⟩ := Tagged.read_array htags hform .nowhere 0 (Node.ofItems ws)
          rw [hread] at h
          obtain ⟨hlen, hmakes⟩ := Form.readList_eq_ok_iff.1 h
          exact ⟨_, hform, _, ⟨hlen, rfl, rfl⟩, hmakes⟩
      · rintro ⟨⟨tag, form⟩, hform, parts, ⟨hlen, rfl, rfl⟩, hmakes⟩
        obtain ⟨title, hread⟩ := Tagged.read_array htags hform .nowhere 0 (Node.ofItems ws)
        rw [htag.2 ⟨rfl, Tagged.mem_tags hform⟩]
        simp only [hread, Form.readList_eq_ok_iff.2 ⟨hlen, hmakes⟩]
  | _ => simp [Decoder.tagged, Node.ofJson, wrongType, parts?]

end Variant
end Decoder
end ToolAgent.Json
