/-
Trees that show a value.

`Node.Shows` forgets the places of a tree and the order of the fields of its objects. A value with
keys that differ is shown by its own tree (`ofJson_shows`) and by the tree of its sorted form
(`ofJson_sorted_shows`), which is what is left of it once it has been free-form data
(`Shows.value`). A value whose text can be read is also without fractions (`Plain`).
-/
import ToolAgent.Proofs.Json.Sorted
import ToolAgent.Proofs.Json.Token

namespace ToolAgent.Json

/-- Numbers are whole and fit a word, keys differ, and brackets nest no deeper than so. -/
def Plain : Nat → Json → Prop
  | _, .null => True
  | _, .bool _ => True
  | _, .number n => n.Plain
  | _, .string _ => True
  | 0, .array _ => False
  | 0, .object _ => False
  | k + 1, .array vs => ∀ v ∈ vs, Plain k v
  | k + 1, .object fs => (fs.map (·.1)).Nodup ∧ ∀ f ∈ fs, Plain k f.2

@[simp] theorem plain_string (s : String) (k : Nat) : (Json.string s).Plain k := by
  cases k <;> trivial

@[simp] theorem plain_bool (b : Bool) (k : Nat) : (Json.bool b).Plain k := by
  cases k <;> trivial

@[simp] theorem plain_word (w : UInt64) (k : Nat) : (Json.int w.toNat).Plain k := by
  have hcount : w.toNat < Word.count := w.toNat_lt
  have hn : (Number.int w.toNat).Plain := ⟨by omega, by omega⟩
  cases k <;> exact hn

theorem Plain.distinct : ∀ {k : Nat} {v : Json}, v.Plain k → v.Distinct
  | _, .null, _ => .null
  | _, .bool _, _ => .bool
  | _, .number _, _ => .number
  | _, .string _, _ => .string
  | 0, .array _, h | 0, .object _, h => h.elim
  | _ + 1, .array _, h => .array fun v hv => Plain.distinct (h v hv)
  | _ + 1, .object _, h => .object h.1 fun field hf => Plain.distinct (h.2 field hf)

mutual

/-- The tree can be read, and this is its value, but for the order of fields. The keys of an object
differ. -/
inductive Node.Shows : Node → Json → Prop
  | null {s} : Shows (.null s) .null
  | bool {s b} : Shows (.bool s b) (.bool b)
  | number {s n} : Shows (.number s n) (.number n)
  | string {s t} : Shows (.string s t) (.string t)
  | array {s level ns vs} : level ≤ Node.deepest → ShowsItems ns vs → Shows (.array s level ns) (.array vs)
  | object {s level ms fs fs'} : level ≤ Node.deepest → (fs'.map (·.1)).Nodup → ShowsFields ms fs → fs.Perm fs' →
      Shows (.object s level ms) (.object fs')

inductive Node.ShowsItems : List Node → List Json → Prop
  | nil : ShowsItems [] []
  | cons {n ns v vs} : Shows n v → ShowsItems ns vs → ShowsItems (n :: ns) (v :: vs)

inductive Node.ShowsFields : List (Label × Node) → List (String × Json) → Prop
  | nil : ShowsFields [] []
  | cons {label n ms k v fs} : label.name = .ok k → label.laxFault? = none → Shows n v → ShowsFields ms fs →
      ShowsFields ((label, n) :: ms) ((k, v) :: fs)

end

namespace Node

theorem Shows.settle {n : Node} {v : Json} (h : n.Shows v) (p : Place) : (n.settle p).Shows v := by
  cases h with
  | null => exact .null
  | bool => exact .bool
  | number => exact .number
  | string => exact .string
  | array hl h => exact .array hl h
  | object hl hk h hp => exact .object hl hk h hp

mutual

/-- Such a tree can be passed over. -/
theorem Shows.laxFault? : ∀ {n : Node} {v : Json}, n.Shows v → n.laxFault? = none
  | _, _, .null | _, _, .bool | _, _, .number | _, _, .string => rfl
  | _, _, .array _ h => h.laxFault?
  | _, _, .object _ _ h _ => h.laxFault?

theorem ShowsItems.laxFault? : ∀ {ns : List Node} {vs : List Json}, ShowsItems ns vs → laxFaultIn? ns = none
  | _, _, .nil => rfl
  | _, _, .cons h hs => by rw [laxFaultIn?, h.laxFault?, hs.laxFault?]; rfl

theorem ShowsFields.laxFault? : ∀ {ms : List (Label × Node)} {fs : List (String × Json)},
    ShowsFields ms fs → laxFaultAmong? ms = none
  | _, _, .nil => rfl
  | _, _, .cons _ hl h hs => by rw [laxFaultAmong?, hl, h.laxFault?, hs.laxFault?]; rfl

end

theorem enter_ok {span : Span} {level : Nat} (h : level ≤ deepest) : Node.enter span level = .ok () :=
  if_pos h

mutual

/-- Such a tree has the value it shows, with the fields in order. -/
theorem Shows.value : ∀ {n : Node} {v : Json}, n.Shows v → n.value = .ok v.sorted
  | _, _, .null | _, _, .bool | _, _, .number | _, _, .string => rfl
  | _, _, .array hl h => by simp only [Node.value, enter_ok hl, h.values, sorted]
  | _, _, @Shows.object s level ms fs fs' hl hk h hp => by
    have hsorted : (sortedFields fs).Perm (sortedFields fs') := by
      rw [sortedFields_eq, sortedFields_eq]
      exact hp.map _
    have hkeys : ((sortedFields fs').map (·.1)).Nodup := by
      rw [sortedFields_eq, List.map_map]
      exact hk
    simp only [Node.value, enter_ok hl, h.fields, sorted, sortFields_eq_of_perm hsorted hkeys]

theorem ShowsItems.values : ∀ {ns : List Node} {vs : List Json}, ShowsItems ns vs →
    Node.values ns = .ok (sortedItems vs)
  | _, _, .nil => rfl
  | _, _, .cons h hs => by simp only [Node.values, h.value, hs.values, sortedItems]

theorem ShowsFields.fields : ∀ {ms : List (Label × Node)} {fs : List (String × Json)}, ShowsFields ms fs →
    Node.fields ms = .ok (sortedFields fs)
  | _, _, .nil => rfl
  | _, _, .cons hn _ h hs => by simp only [Node.fields, hn, h.value, hs.fields, sortedFields]

end

/-! ## Trees of values -/

theorem ShowsItems.of_forall {f : Json → Node} {vs : List Json} (h : ∀ v ∈ vs, (f v).Shows v) :
    ShowsItems (vs.map f) vs := by
  induction vs with
  | nil => exact .nil
  | cons v vs ih => exact .cons (h v (by simp)) (ih fun w hw => h w (List.mem_cons_of_mem v hw))

/-- The label of a field that was not read from a text. -/
def label (k : String) : Label := ⟨⟨0, 0⟩, .ok k, none⟩

theorem ShowsFields.of_forall {f : Json → Node} {fs : List (String × Json)}
    (h : ∀ field ∈ fs, (f field.2).Shows field.2) :
    ShowsFields (fs.map fun field => (label field.1, f field.2)) fs := by
  induction fs with
  | nil => exact .nil
  | cons field fs ih =>
    exact .cons rfl rfl (h field (by simp)) (ih fun other ho => h other (List.mem_cons_of_mem field ho))

theorem ofItems_eq (vs : List Json) : ofItems vs = vs.map ofJson := by
  induction vs with
  | nil => rfl
  | cons v vs ih => rw [ofItems, ih]; rfl

theorem ofFields_eq (fs : List (String × Json)) :
    ofFields fs = fs.map fun field => (label field.1, ofJson field.2) := by
  induction fs with
  | nil => rfl
  | cons field fs ih => rw [ofFields, ih]; rfl

/-- Members in another order show the fields in another order. -/
theorem ShowsFields.perm {ms ms' : List (Label × Node)} {fs : List (String × Json)} (h : ShowsFields ms fs)
    (hp : ms.Perm ms') : ∃ fs', ShowsFields ms' fs' ∧ fs'.Perm fs := by
  induction hp generalizing fs with
  | nil => exact ⟨fs, h, .refl _⟩
  | cons m _ ih =>
    cases h with
    | cons hn hl hs h =>
      obtain ⟨fs', h', hp⟩ := ih h
      exact ⟨_, .cons hn hl hs h', hp.cons _⟩
  | swap m m' ms =>
    cases h with
    | cons hn hl hs h =>
      cases h with
      | cons hn' hl' hs' h => exact ⟨_, .cons hn' hl' hs' (.cons hn hl hs h), .swap _ _ _⟩
  | trans _ _ ih ih' =>
    obtain ⟨fs', h', hp⟩ := ih h
    obtain ⟨fs'', h'', hp'⟩ := ih' h'
    exact ⟨fs'', h'', hp'.trans hp⟩

/-- A value is shown by its own tree. -/
theorem ofJson_shows {v : Json} (h : v.Distinct) : (ofJson v).Shows v := by
  induction h with
  | null => exact .null
  | bool => exact .bool
  | number => exact .number
  | string => exact .string
  | array _ ih =>
    rw [ofJson, ofItems_eq]
    exact .array (Nat.zero_le _) (.of_forall ih)
  | object hk _ ih =>
    rw [ofJson, ofFields_eq]
    exact .object (Nat.zero_le _) hk (.of_forall ih) (.refl _)

/-- A value is shown by the tree of its sorted form. -/
theorem ofJson_sorted_shows {v : Json} (h : v.Distinct) : (ofJson v.sorted).Shows v := by
  induction h with
  | null => exact .null
  | bool => exact .bool
  | number => exact .number
  | string => exact .string
  | array _ ih =>
    rw [sorted, ofJson, ofItems_eq, sortedItems_eq, List.map_map]
    exact .array (Nat.zero_le _) (.of_forall ih)
  | @object fs hk _ ih =>
    rw [sorted, ofJson, ofFields_eq, sortedFields_eq]
    have hkeys : ((fs.map fun field => (field.1, field.2.sorted)).map (·.1)).Nodup := by
      rw [List.map_map]
      exact hk
    have hshown : ShowsFields (fs.map fun field => (label field.1, ofJson field.2.sorted)) fs :=
      ShowsFields.of_forall (f := fun v => ofJson v.sorted) ih
    have hperm := ((sortFields_perm hkeys).map fun field => (label field.1, ofJson field.2)).symm
    rw [List.map_map] at hperm
    obtain ⟨fs', hs, hp⟩ := hshown.perm hperm
    exact .object (Nat.zero_le _) hk hs hp

end Node

end ToolAgent.Json
