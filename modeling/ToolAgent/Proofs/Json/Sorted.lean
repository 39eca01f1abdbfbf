/-
Values whose keys are in order.

`sortFields` puts every field at its place, so what it makes has its keys in order
(`sortFields_ascending`), and of fields with different keys it makes the same however they stand
(`sortFields_eq_of_perm`). Sorting a value puts it in order and leaves alone what is in order
(`sorted_inOrder`, `sorted_eq_self_iff`).
-/
import Mathlib.Data.List.Perm.Basic
import ToolAgent.Json.Value

namespace ToolAgent.Json

/-- What holds of a value as soon as it holds of those in it, holds of every value. -/
theorem tree_induct {motive : Json → Prop} (null : motive .null) (bool : ∀ b, motive (.bool b))
    (number : ∀ n, motive (.number n)) (string : ∀ s, motive (.string s))
    (array : ∀ vs, (∀ v ∈ vs, motive v) → motive (.array vs))
    (object : ∀ fs, (∀ f ∈ fs, motive f.2) → motive (.object fs)) (v : Json) : motive v := by
  refine @Json.rec motive (fun vs => ∀ v ∈ vs, motive v) (fun fs => ∀ f ∈ fs, motive f.2) (fun f => motive f.2)
    null bool number string array object ?_ ?_ ?_ ?_ ?_ v
  · intro v hv
    cases hv
  · intro w vs hw hvs v hv
    obtain rfl | hv := List.mem_cons.1 hv
    · exact hw
    · exact hvs v hv
  · intro f hf
    cases hf
  · intro g fs hg hfs f hf
    obtain rfl | hf := List.mem_cons.1 hf
    · exact hg
    · exact hfs f hf
  · intro _ v hv
    exact hv

theorem sortedItems_eq (vs : List Json) : sortedItems vs = vs.map sorted := by
  induction vs with
  | nil => rfl
  | cons v vs ih => rw [sortedItems, ih]; rfl

theorem sortedFields_eq (fs : List (String × Json)) :
    sortedFields fs = fs.map fun field => (field.1, field.2.sorted) := by
  induction fs with
  | nil => rfl
  | cons field fs ih => rw [sortedFields, ih]; rfl

/-! ## Fields in order -/

/-- Every key comes before those behind it. -/
def Ascending (fs : List (String × Json)) : Prop := fs.Pairwise fun f g => f.1 < g.1

theorem Ascending.nodup {fs : List (String × Json)} (h : Ascending fs) : (fs.map (·.1)).Nodup := by
  rw [List.Nodup, List.pairwise_map]
  refine List.Pairwise.imp (fun {f g} hlt heq => ?_) h
  rw [heq] at hlt
  exact String.lt_irrefl _ hlt

theorem Ascending.eq_of_perm {fs gs : List (String × Json)} (hf : Ascending fs) (hg : Ascending gs)
    (hp : fs.Perm gs) : fs = gs := by
  refine hp.eq_of_pairwise (fun f g _ _ hfg hgf => ?_) hf hg
  exact absurd (String.lt_trans hfg hgf) (String.lt_irrefl _)

theorem mem_setField {k : String} {v : Json} : ∀ {fs : List (String × Json)} {f : String × Json},
    f ∈ setField k v fs → f = (k, v) ∨ f ∈ fs
  | [], f, h => .inl (by simpa [setField] using h)
  | (k', v') :: fs, f, h => by
    rw [setField] at h
    split at h
    · obtain h | h := List.mem_cons.1 h
      · exact .inl h
      · exact .inr (List.mem_cons_of_mem _ h)
    · split at h
      · exact List.mem_cons.1 h
      · obtain h | h := List.mem_cons.1 h
        · exact .inr (h ▸ List.mem_cons_self)
        · obtain h | h := mem_setField h
          · exact .inl h
          · exact .inr (List.mem_cons_of_mem _ h)

theorem setField_ascending {k : String} {v : Json} : ∀ {fs : List (String × Json)}, Ascending fs →
    Ascending (setField k v fs)
  | [], _ => List.pairwise_singleton _ _
  | (k', v') :: fs, h => by
    obtain ⟨hk', hfs⟩ := List.pairwise_cons.1 h
    rw [setField]
    split
    next heq => exact List.pairwise_cons.2 ⟨heq ▸ hk', hfs⟩
    next hne =>
      split
      next hlt =>
        refine List.pairwise_cons.2 ⟨fun f hf => ?_, h⟩
        obtain rfl | hf := List.mem_cons.1 hf
        · exact hlt
        · exact String.lt_trans hlt (hk' f hf)
      next hge =>
        have hlt : k' < k := Std.lt_of_le_of_ne (String.not_lt.1 hge) (Ne.symm hne)
        refine List.pairwise_cons.2 ⟨fun f hf => ?_, setField_ascending hfs⟩
        obtain rfl | hf := mem_setField hf
        · exact hlt
        · exact hk' f hf

theorem setField_perm {k : String} {v : Json} : ∀ {fs : List (String × Json)}, k ∉ fs.map (·.1) →
    (setField k v fs).Perm ((k, v) :: fs)
  | [], _ => .refl _
  | (k', v') :: fs, h => by
    simp only [List.map_cons, List.mem_cons, not_or] at h
    rw [setField, if_neg h.1]
    split
    · exact .refl _
    · exact ((setField_perm h.2).cons _).trans (.swap _ _ _)

theorem sortFields_ascending (fs : List (String × Json)) : Ascending (sortFields fs) :=
  List.foldlRecOn (motive := Ascending) fs _ .nil fun _ h _ _ => setField_ascending h

theorem mem_sortFields {fs : List (String × Json)} {f : String × Json} (h : f ∈ sortFields fs) : f ∈ fs := by
  have hall : ∀ g ∈ sortFields fs, g ∈ fs := by
    refine List.foldlRecOn (motive := fun sorted => ∀ g ∈ sorted, g ∈ fs) fs _ (by simp) ?_
    intro sorted hsorted added hadded g hg
    obtain rfl | hg := mem_setField hg
    · exact hadded
    · exact hsorted g hg
  exact hall f h

/-- Fields with different keys are only put in order. -/
theorem sortFields_perm {fs : List (String × Json)} (h : (fs.map (·.1)).Nodup) : (sortFields fs).Perm fs := by
  have hfold : ∀ (fs sorted : List (String × Json)), ((fs ++ sorted).map (·.1)).Nodup →
      (fs.foldl (fun sorted f => setField f.1 f.2 sorted) sorted).Perm (fs ++ sorted) := by
    intro fs
    induction fs with
    | nil => exact fun sorted _ => .refl _
    | cons f fs ih =>
      intro sorted hn
      rw [List.cons_append, List.map_cons, List.nodup_cons] at hn
      have hset : (setField f.1 f.2 sorted).Perm (f :: sorted) :=
        setField_perm fun hm => hn.1 (by simp only [List.map_append, List.mem_append]; exact .inr hm)
      have hmoved : (fs ++ setField f.1 f.2 sorted).Perm (f :: (fs ++ sorted)) :=
        (hset.append_left fs).trans List.perm_middle
      refine (ih _ ?_).trans hmoved
      exact (hmoved.map (·.1)).nodup_iff.2 (List.nodup_cons.2 hn)
  have hall := hfold fs []
  rw [List.append_nil] at hall
  exact hall h

theorem sortFields_eq_of_perm {fs gs : List (String × Json)} (hp : fs.Perm gs) (h : (gs.map (·.1)).Nodup) :
    sortFields fs = sortFields gs := by
  have hfs : (fs.map (·.1)).Nodup := (hp.map (·.1)).nodup_iff.2 h
  refine (sortFields_ascending fs).eq_of_perm (sortFields_ascending gs) ?_
  exact (sortFields_perm hfs).trans (hp.trans (sortFields_perm h).symm)

theorem sortFields_of_ascending {fs : List (String × Json)} (h : Ascending fs) : sortFields fs = fs :=
  (sortFields_ascending fs).eq_of_perm h (sortFields_perm h.nodup)

/-! ## Values in order -/

/-- The keys of every object in the value are in order, each once. -/
inductive InOrder : Json → Prop
  | null : InOrder .null
  | bool {b : Bool} : InOrder (.bool b)
  | number {n : Number} : InOrder (.number n)
  | string {s : String} : InOrder (.string s)
  | array {vs : List Json} : (∀ v ∈ vs, InOrder v) → InOrder (.array vs)
  | object {fs : List (String × Json)} : Ascending fs → (∀ f ∈ fs, InOrder f.2) → InOrder (.object fs)

theorem sorted_inOrder (v : Json) : v.sorted.InOrder := by
  induction v using tree_induct with
  | null => exact .null
  | bool => exact .bool
  | number => exact .number
  | string => exact .string
  | array vs ih =>
    rw [sorted, sortedItems_eq]
    exact .array (by simpa using ih)
  | object fs ih =>
    rw [sorted, sortedFields_eq]
    refine .object (sortFields_ascending _) fun f hf => ?_
    obtain ⟨g, hg, rfl⟩ := List.mem_map.1 (mem_sortFields hf)
    exact ih g hg

theorem InOrder.sorted_eq {v : Json} (h : v.InOrder) : v.sorted = v := by
  induction h with
  | null | bool | number | string => rfl
  | array _ ih => rw [sorted, sortedItems_eq, List.map_congr_left ih, List.map_id']
  | @object fs hfs _ ih =>
    have hfields : ∀ f ∈ fs, (f.1, f.2.sorted) = f := fun f hf => Prod.ext rfl (ih f hf)
    rw [sorted, sortedFields_eq, List.map_congr_left hfields, List.map_id', sortFields_of_ascending hfs]

/-- Putting in order leaves alone just what is in order. -/
theorem sorted_eq_self_iff {v : Json} : v.sorted = v ↔ v.InOrder :=
  ⟨fun h => h ▸ sorted_inOrder v, fun h => h.sorted_eq⟩

/-- The keys of every object in the value differ. -/
inductive Distinct : Json → Prop
  | null : Distinct .null
  | bool {b : Bool} : Distinct (.bool b)
  | number {n : Number} : Distinct (.number n)
  | string {s : String} : Distinct (.string s)
  | array {vs : List Json} : (∀ v ∈ vs, Distinct v) → Distinct (.array vs)
  | object {fs : List (String × Json)} : (fs.map (·.1)).Nodup → (∀ f ∈ fs, Distinct f.2) → Distinct (.object fs)

attribute [simp] Distinct.null Distinct.bool Distinct.number Distinct.string

@[simp] theorem distinct_array {vs : List Json} : (Json.array vs).Distinct ↔ ∀ v ∈ vs, v.Distinct := by
  refine ⟨fun h => ?_, .array⟩
  cases h with
  | array h => exact h

@[simp] theorem distinct_object {fs : List (String × Json)} :
    (Json.object fs).Distinct ↔ (fs.map (·.1)).Nodup ∧ ∀ f ∈ fs, f.2.Distinct := by
  refine ⟨fun h => ?_, fun h => .object h.1 h.2⟩
  cases h with
  | object hk h => exact ⟨hk, h⟩

theorem InOrder.distinct {v : Json} (h : v.InOrder) : v.Distinct := by
  induction h with
  | null => exact .null
  | bool => exact .bool
  | number => exact .number
  | string => exact .string
  | array _ ih => exact .array ih
  | object hfs _ ih => exact .object hfs.nodup ih

end ToolAgent.Json
