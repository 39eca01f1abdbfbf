/-
What is read from a written value.

`Decoder.Reads` says what a decoder makes of every tree that shows a value. A record is read from
fields in any order, of which it may lack those that its form has a value for (`Form.Fits`). The
text of a value, on one line or indented, the value itself and its sorted form all show it, so all
four are read alike.
-/
import ToolAgent.Json.Decoder
import ToolAgent.Proofs.Json.Written

namespace ToolAgent.Json

/-- Trees that show a value are read as this, wherever they come from. -/
def Decoder.Reads {α : Type} (d : Decoder α) (v : Json) (x : α) : Prop :=
  ∀ (o : Origin) (n : Node), n.Shows v → d o n = .ok x

/-- A value, where null stands for nothing. -/
def present? : Json → Option Json
  | .null => none
  | v => some v

namespace Decoder.Reads

variable {α β : Type}

/-! ## Leaves and lists -/

theorem string (s : String) : Decoder.string.Reads (.string s) s := by
  intro o n h
  cases h
  rfl

theorem bool (b : Bool) : Decoder.bool.Reads (.bool b) b := by
  intro o n h
  cases h
  rfl

theorem word (w : UInt64) : Decoder.word.Reads (.int w.toNat) w := by
  intro o n h
  cases h
  have hw : Word.Unsigned (w.toNat : Int) := by
    have hcount : w.toNat < Word.count := w.toNat_lt
    constructor <;> omega
  simp [Decoder.word, hw]

theorem map {d : Decoder α} {v : Json} {x : α} (h : d.Reads v x) (f : α → β) : (d.map f).Reads v (f x) := by
  intro o n hn
  rw [Decoder.map, h o n hn]

theorem optional {d : Decoder α} {v : Json} {x : α} (h : d.Reads v x) (hv : v ≠ .null) :
    (Decoder.optional d).Reads v (some x) := by
  intro o n hn
  have hread := h o n hn
  cases hn with
  | null => exact (hv rfl).elim
  | bool | number | string | array | object => simp only [Decoder.optional, hread]

/-- Free-form data is put in order. -/
theorem json (v : Json) : Decoder.json.Reads v v.sorted := by
  intro o n h
  rw [Decoder.json, h.value]

theorem optional_json (v : Json) : (Decoder.optional Decoder.json).Reads v v.sorted.present? := by
  cases v with
  | null =>
    intro o n hn
    cases hn
    rfl
  | bool | number | string | array | object => exact (json _).optional (by simp)

theorem enter_ok {o : Origin} {span : Span} {level : Nat} (h : level ≤ Node.deepest) :
    enter o span level = .ok () := by
  cases o with
  | text => simp [enter, Node.enter_ok h]
  | value | setAside => rfl

theorem items {d : Decoder α} {f : β → Json} {g : β → α} {o : Origin} : ∀ {xs : List β} {ns : List Node},
    (∀ x ∈ xs, d.Reads (f x) (g x)) → Node.ShowsItems ns (xs.map f) → Decoder.items d o ns = .ok (xs.map g)
  | [], _, _, .nil => rfl
  | x :: xs, _, hd, .cons h hs => by
    rw [Decoder.items, hd x (by simp) o _ h, Reads.items (fun y hy => hd y (List.mem_cons_of_mem x hy)) hs]
    rfl

theorem list_map {d : Decoder α} {f : β → Json} {g : β → α} {xs : List β} (hd : ∀ x ∈ xs, d.Reads (f x) (g x)) :
    (Decoder.list d).Reads (.array (xs.map f)) (xs.map g) := by
  intro o n hn
  cases hn with
  | array hl hs => rw [Decoder.list, enter_ok hl, items hd hs]

theorem list {d : Decoder α} {f : α → Json} {xs : List α} (hd : ∀ x ∈ xs, d.Reads (f x) x) :
    (Decoder.list d).Reads (.array (xs.map f)) xs := by
  simpa using list_map (g := id) hd

end Decoder.Reads

/-! ## Records -/

namespace Form

def names {α : Type} : Form α → List String
  | .done _ => []
  | .slot name _ _ _ rest => name :: rest.names

@[simp] theorem names_done {α : Type} (a : α) : (Form.done a).names = [] := rfl

@[simp] theorem names_required {α β : Type} (name : String) (d : Decoder β) (rest : Form (β → α)) :
    (required name d rest).names = name :: rest.names := rfl

@[simp] theorem names_defaulted {α β : Type} (name : String) (d : Decoder β) (absent : β) (rest : Form (β → α)) :
    (defaulted name d absent rest).names = name :: rest.names := rfl

/-- What a form becomes of fields: every slot is filled by a field that is read as a value, or none
has its name and it has a value without. -/
inductive Fits (fs : List (String × Json)) : {α : Type} → Form α → α → Prop
  | done {α : Type} {a : α} : Fits fs (.done a) a
  | given {α β : Type} {name : String} {d : Decoder β} {absent : Option β} {rest : Form (β → α)} {f : β → α}
      {v : Json} {b : β} {a : α} :
      rest.Fits fs f → (name, v) ∈ fs → d.Reads v b → f b = a → Fits fs (.slot name d absent none rest) a
  | left {α β : Type} {name : String} {d : Decoder β} {absent held : Option β} {rest : Form (β → α)} {f : β → α}
      {b : β} {a : α} :
      rest.Fits fs f → name ∉ fs.map (·.1) → held.or absent = some b → f b = a →
        Fits fs (.slot name d absent held rest) a

variable {α β : Type} {fs : List (String × Json)}

theorem Fits.required {name : String} {d : Decoder β} {rest : Form (β → α)} {f : β → α} {v : Json} {b : β} {a : α}
    (h : rest.Fits fs f) (hv : (name, v) ∈ fs) (hd : d.Reads v b) (ha : f b = a) :
    (Form.required name d rest).Fits fs a :=
  .given h hv hd ha

theorem Fits.defaulted {name : String} {d : Decoder β} {absent : β} {rest : Form (β → α)} {f : β → α} {v : Json}
    {b : β} {a : α} (h : rest.Fits fs f) (hv : (name, v) ∈ fs) (hd : d.Reads v b) (ha : f b = a) :
    (Form.defaulted name d absent rest).Fits fs a :=
  .given h hv hd ha

theorem Fits.absent {name : String} {d : Decoder β} {absent : β} {rest : Form (β → α)} {f : β → α} {a : α}
    (h : rest.Fits fs f) (hn : name ∉ fs.map (·.1)) (ha : f absent = a) :
    (Form.defaulted name d absent rest).Fits fs a :=
  .left h hn rfl ha

/-- The order of the fields does not matter. -/
theorem Fits.perm {form : Form α} {fs' : List (String × Json)} {a : α} (h : form.Fits fs a) (hp : fs.Perm fs') :
    form.Fits fs' a := by
  induction h with
  | done => exact .done
  | given _ hv hd ha ih => exact .given ih (hp.mem_iff.1 hv) hd ha
  | left _ hn hb ha ih => exact .left ih (fun hm => hn ((hp.map (·.1)).mem_iff.2 hm)) hb ha

/-- No fields are left: the form is closed. -/
theorem Fits.close {form : Form α} {a : α} (h : form.Fits [] a) : form.close = .ok a := by
  generalize hfs : [] = fs at h
  induction h with
  | done => rfl
  | given _ hv => cases hfs ▸ hv
  | left _ _ hb ha ih => simp only [Form.close, hb, ih, ha]

/-- A field without a slot makes no difference to a form. -/
theorem Fits.drop {form : Form α} {k : String} {v : Json} {a : α} (h : form.Fits ((k, v) :: fs) a)
    (hk : k ∉ form.names) : form.Fits fs a := by
  generalize hall : (k, v) :: fs = all at h
  induction h with
  | done => exact .done
  | @given _ _ name _ _ _ _ w _ _ _ hv hd ha ih =>
    simp only [names, List.mem_cons, not_or] at hk
    refine .given (ih hk.2) ?_ hd ha
    rcases List.mem_cons.1 (hall ▸ hv) with heq | hv
    · exact (hk.1 (congrArg Prod.fst heq).symm).elim
    · exact hv
  | left _ hn hb ha ih =>
    simp only [names, List.mem_cons, not_or] at hk
    refine .left (ih hk.2) ?_ hb ha
    subst hall
    exact fun hm => hn (List.mem_cons_of_mem _ hm)

/-- What a form that fits makes of the first of the fields: it has no slot for it, or the slot is
filled, and either way fits the others. -/
inductive Offer.Takes (form : Form α) (fs : List (String × Json)) (a : α) : Offer α → Prop
  | unknown : form.Fits fs a → Takes form fs a .unknown
  | filled {form' : Form α} : form'.Fits fs a → form'.names = form.names → Takes form fs a (.filled form')

/-- A slot of another name leaves the field to the slots behind it. -/
theorem Offer.Takes.slot {o : Origin} {k name : String} {n : Node} {d : Decoder β} {absent held : Option β}
    {rest : Form (β → α)} {f : β → α} {a : α} (h : (rest.offer o k n).Takes rest fs f) (hk : name ≠ k)
    (hslot : ∀ {rest' : Form (β → α)}, rest'.Fits fs f → (Form.slot name d absent held rest').Fits fs a) :
    ((Form.slot name d absent held rest).offer o k n).Takes (.slot name d absent held rest) fs a := by
  simp only [Form.offer, if_neg hk]
  generalize rest.offer o k n = offer at h
  cases h with
  | unknown hf => exact .unknown (hslot hf)
  | filled hf hnames => exact .filled (hslot hf) (by rw [names, names, hnames])

theorem Fits.offer {form : Form α} {o : Origin} {n : Node} {k : String} {v : Json} {a : α} (hn : n.Shows v)
    (hform : form.names.Nodup) (hk : k ∉ fs.map (·.1)) (h : form.Fits ((k, v) :: fs) a) :
    (form.offer o k n).Takes form fs a := by
  induction form with
  | done => exact .unknown (h.drop (by simp))
  | slot name d absent held rest ih =>
    rw [names, List.nodup_cons] at hform
    cases h with
    | given hrest hv hd ha =>
      by_cases hname : name = k
      · subst hname
        -- The key is met once, so it is this field that the slot was to be filled with.
        obtain heq | hv := List.mem_cons.1 hv
        · obtain rfl := congrArg Prod.snd heq
          rw [Form.offer, if_pos rfl]
          simp only [hd o n hn]
          exact .filled (.left (hrest.drop hform.1) hk rfl ha) rfl
        · exact (hk (List.mem_map_of_mem hv)).elim
      · refine .slot (ih hform.2 hrest) hname fun hf => .given hf ?_ hd ha
        obtain heq | hv := List.mem_cons.1 hv
        · exact (hname (congrArg Prod.fst heq)).elim
        · exact hv
    | left hrest hn' hb ha =>
      rw [List.map_cons, List.mem_cons, not_or] at hn'
      exact .slot (ih hform.2 hrest) hn'.1 fun hf => .left hf hn'.2 hb ha

/-- The members of an object fill the form that their fields fit. -/
theorem Fits.fill {o : Origin} {stop : Place} {a : α} : ∀ {fs : List (String × Json)} {ms : List (Label × Node)}
    {form : Form α}, form.names.Nodup → (fs.map (·.1)).Nodup → Node.ShowsFields ms fs → form.Fits fs a →
      form.fill o stop ms = .ok a := by
  intro fs
  induction fs with
  | nil =>
    rintro ms form - - hms h
    cases hms
    rw [Form.fill, h.close]
  | cons field fs ih =>
    rintro ms form hform hkeys hms h
    obtain _ | @⟨label, n, ms, k, v, _, hname, hlax, hn, hms⟩ := hms
    rw [List.map_cons, List.nodup_cons] at hkeys
    have htakes := h.offer (o := o) hn hform hkeys.1
    simp only [Form.fill, hname]
    generalize form.offer o k n = offer at htakes
    cases htakes with
    | unknown hf =>
      simp only [hn.laxFault?, ite_self]
      exact ih hform hkeys.2 hms hf
    | filled hf hnames => exact ih (hnames ▸ hform) hkeys.2 hms hf

end Form

namespace Decoder.Reads

variable {α : Type} {fs : List (String × Json)} {a : α}

theorem record {name : String} {form : Form α} (hform : form.names.Nodup) (h : form.Fits fs a) :
    (Decoder.record name form).Reads (.object fs) a := by
  intro o n hn
  cases hn with
  | object hl hk hs hp =>
    rw [Decoder.record, enter_ok hl]
    exact Form.Fits.fill hform ((hp.map (·.1)).nodup_iff.2 hk) hs (h.perm hp.symm)

/-! ## Variants -/

theorem keyed {vs : Variants α} {name : String} {v : Json} {d : Decoder α} (hd : vs.find name = .ok d)
    (h : d.Reads v a) : (Decoder.keyed vs).Reads (.object [(name, v)]) a := by
  intro o n hn
  cases hn with
  | object hl hk hs hp =>
    obtain rfl := List.perm_singleton.1 hp
    obtain _ | ⟨hname, hlax, hn, hnil⟩ := hs
    cases hnil
    cases o with
    | text => simp only [Decoder.keyed, enter_ok hl, hname, hd, h .text _ hn]
    | value => simp only [Decoder.keyed, hname, hd, h .value _ hn]
    | setAside => simp only [Decoder.keyed, hname, hd, h .setAside _ hn]

end Decoder.Reads

namespace Decoder

variable {α : Type} {fs : List (String × Json)} {a : α}

/-- The fields besides the tag fit the form of its variant. -/
inductive Tagged.Fits (tag : String) (fs : List (String × Json)) (a : α) : Tagged α → Prop
  | here {title : String} {form : Form α} {rest : Tagged α} :
      form.names.Nodup → form.Fits fs a → Fits tag fs a (.cons tag title form rest)
  | there {other title : String} {form : Form α} {rest : Tagged α} :
      other ≠ tag → Fits tag fs a rest → Fits tag fs a (.cons other title form rest)

theorem Tagged.Fits.mem_tags {tag : String} {vs : Tagged α} (h : vs.Fits tag fs a) : tag ∈ vs.tags := by
  induction h with
  | here => exact .head _
  | there _ _ ih => exact .tail _ ih

theorem Tagged.Fits.read {tag : String} {vs : Tagged α} {fs' : List (String × Json)} {ms : List (Label × Node)}
    {span : Span} {level : Nat} (h : vs.Fits tag fs a) (hp : fs.Perm fs') (hk : (fs'.map (·.1)).Nodup)
    (hms : Node.ShowsFields ms fs') : vs.read tag (.object span level ms) = some (.ok a) := by
  induction h with
  | here hform hfits =>
    rw [Tagged.read, if_pos rfl]
    exact congrArg some (Form.Fits.fill hform hk hms (hfits.perm hp))
  | there hne _ ih => rw [Tagged.read, if_neg hne, ih]

theorem splitTag_other {o : Origin} {tags : List String} {tag tag' : Option String} {k : String} {label : Label}
    {n : Node} {ms others : List (Label × Node)} {w : Json} (hname : label.name = .ok k) (hk : k ≠ "type")
    (hw : n.value = .ok w) (h : splitTag o tags tag ms = .ok (tag', others)) :
    splitTag o tags tag ((label, n) :: ms) = .ok (tag', (label, n) :: others) := by
  simp only [splitTag, hname, hw, h]

/-- No tag is among the members. -/
theorem splitTag_others {o : Origin} {tags : List String} {tag : Option String} :
    ∀ {fs : List (String × Json)} {ms : List (Label × Node)}, "type" ∉ fs.map (·.1) → Node.ShowsFields ms fs →
      splitTag o tags tag ms = .ok (tag, ms) := by
  intro fs
  induction fs with
  | nil =>
    rintro ms - hms
    cases hms
    rfl
  | cons field fs ih =>
    rintro ms ht hms
    obtain _ | ⟨hname, hlax, hn, hms⟩ := hms
    rw [List.map_cons, List.mem_cons, not_or] at ht
    exact splitTag_other hname (Ne.symm ht.1) hn.value (ih ht.2 hms)

/-- The tag is parted from the other members, wherever it stands among them. -/
theorem splitTag_tag {o : Origin} {tags : List String} {tag : String} (htag : tag ∈ tags) :
    ∀ {fs : List (String × Json)} {ms : List (Label × Node)}, (fs.map (·.1)).Nodup → Node.ShowsFields ms fs →
      ("type", .string tag) ∈ fs → ∃ fs' others, splitTag o tags none ms = .ok (some tag, others) ∧
        Node.ShowsFields others fs' ∧ fs.Perm (("type", .string tag) :: fs') := by
  intro fs
  induction fs with
  | nil =>
    rintro ms - - hm
    cases hm
  | cons field fs ih =>
    rintro ms hk hms hm
    obtain _ | @⟨label, n, ms, k, v, _, hname, hlax, hn, hms⟩ := hms
    rw [List.map_cons, List.nodup_cons] at hk
    obtain heq | hrest := List.mem_cons.1 hm
    · obtain ⟨rfl, rfl⟩ := Prod.mk.inj heq
      refine ⟨fs, ms, ?_, hms, .refl _⟩
      have hread : tagName tags o n = .ok tag := by
        cases hn
        exact if_pos htag
      simp only [splitTag, hname, hread]
      exact splitTag_others hk.1 hms
    · have hne : k ≠ "type" := by
        rintro rfl
        exact hk.1 (List.mem_map.2 ⟨_, hrest, rfl⟩)
      obtain ⟨fs', others, hsplit, hothers, hp⟩ := ih hk.2 hms hrest
      have hsplit' := splitTag_other hname hne hn.value hsplit
      exact ⟨(k, v) :: fs', (label, n) :: others, hsplit', .cons hname hlax hn hothers,
        (hp.cons _).trans (.swap _ _ _)⟩

theorem Reads.tagged {name tag : String} {vs : Tagged α} (h : vs.Fits tag fs a) :
    (Decoder.tagged name vs).Reads (.object (("type", .string tag) :: fs)) a := by
  intro o n hn
  cases hn with
  | object hl hk hs hp =>
    have hkeys := (hp.map (·.1)).nodup_iff.2 hk
    obtain ⟨fs', others, hsplit, hothers, hp'⟩ := splitTag_tag (o := o) h.mem_tags hkeys hs (hp.mem_iff.2 (.head _))
    have hperm : fs.Perm fs' := (hp.symm.trans hp').cons_inv
    have hkeys' : (fs'.map (·.1)).Nodup := (hperm.map (·.1)).nodup_iff.1 (List.nodup_cons.1 hk).2
    simp only [Decoder.tagged, Reads.enter_ok hl, hsplit, h.read hperm hkeys' hothers]

/-! ## Whole texts and values -/

variable {d : Decoder α} {k : Nat} {v : Json} {x : α}

theorem Reads.readText_write (h : d.Reads v x) (hv : v.Plain k) (hk : k ≤ Node.deepest) {sp : Spacing}
    (hsp : sp.Blank) : d.readText (String.ofList (write sp 0 v)) = .ok x := by
  obtain ⟨hroot, htrailing⟩ := Document.read_write hsp hv hk
  simp only [Decoder.readText, h _ _ hroot, htrailing]

theorem Reads.readText_compact (h : d.Reads v x) (hv : v.Plain k) (hk : k ≤ Node.deepest) :
    d.readText v.compact = .ok x :=
  h.readText_write hv hk Spacing.none_blank

theorem Reads.readText_pretty (h : d.Reads v x) (hv : v.Plain k) (hk : k ≤ Node.deepest) :
    d.readText v.pretty = .ok x :=
  h.readText_write hv hk Spacing.indented_blank

/-- A value is read as this, with its fields as they are listed and in order. -/
def Restores (d : Decoder α) (v : Json) (x : α) : Prop :=
  d.readJson v = .ok x ∧ d.readJson v.sorted = .ok x

theorem Reads.restores (h : d.Reads v x) (hv : v.Distinct) : d.Restores v x :=
  ⟨h _ _ (Node.ofJson_shows hv), h _ _ (Node.ofJson_sorted_shows hv)⟩

theorem Reads.readJson (h : d.Reads v x) (hv : v.Plain k) : d.readJson v = .ok x :=
  (h.restores hv.distinct).1

theorem Reads.readJson_sorted (h : d.Reads v x) (hv : v.Plain k) : d.readJson v.sorted = .ok x :=
  (h.restores hv.distinct).2

theorem Restores.eq {y : α} (hx : d.Restores v x) (hy : d.Restores v y) : x = y :=
  Except.ok.inj (hx.1.symm.trans hy.1)

/-- What is read is all that is restored. -/
theorem Restores.iff_eq {y : α} (hx : d.Restores v x) : d.Restores v y ↔ x = y :=
  ⟨fun hy => hx.eq hy, fun h => h ▸ hx⟩

end Decoder

end ToolAgent.Json
