/-
Lookup by name.

The names in a registry are distinct, so a name leads to the one tool that bears it, and that
stands where the name does (`mem_named_iff`). The index is filled tool by tool, and at every step
it leads to all that is in it (`Index.Holds`). So in the end it leads where the registry does
(`Index.Keeps`), and it is refused for the same names (`Registry.clashes`).
-/
import ToolAgent.Registry.Index

namespace ToolAgent

/-! ## Names -/

section Names

variable {α : Type} (name : α → String) {xs : List α} {n : String} {x : α}

theorem find?_name_iff (h : (xs.map name).Nodup) : xs.find? (name · = n) = some x ↔ x ∈ xs ∧ name x = n := by
  have hfound : ∀ {y}, xs.find? (name · = n) = some y → y ∈ xs ∧ name y = n := fun hy =>
    ⟨List.mem_of_find?_eq_some hy, by simpa using List.find?_some hy⟩
  refine ⟨hfound, ?_⟩
  rintro ⟨hx, hn⟩
  obtain ⟨y, hy⟩ : ∃ y, xs.find? (name · = n) = some y :=
    Option.isSome_iff_exists.1 (List.find?_isSome.2 ⟨x, hx, decide_eq_true hn⟩)
  obtain ⟨hmem, hname⟩ := hfound hy
  rw [hy, List.inj_on_of_nodup_map h hmem hx (hname.trans hn.symm)]

/-- What bears a name stands at its place. -/
theorem mem_named_iff : x ∈ xs ∧ name x = n ↔ ∃ i : Nat, (xs.map name)[i]? = some n ∧ xs[i]? = some x := by
  constructor
  · rintro ⟨hx, rfl⟩
    obtain ⟨i, hi⟩ := List.mem_iff_getElem?.1 hx
    exact ⟨i, by rw [List.getElem?_map, hi]; rfl, hi⟩
  · rintro ⟨i, hn, hi⟩
    rw [List.getElem?_map, hi] at hn
    exact ⟨List.mem_of_getElem? hi, Option.some.inj hn⟩

theorem not_mem_names {ys : List α} (h : ((xs ++ [x] ++ ys).map name).Nodup) : name x ∉ xs.map name := by
  rw [List.map_append, List.map_append, List.map_singleton, List.append_assoc] at h
  exact fun hx => (List.nodup_append.1 h).2.2 _ hx (name x) (by simp) rfl

end Names

theorem getElem?_concat_iff {α : Type} {xs : List α} {x y : α} {i : Nat} :
    (xs ++ [x])[i]? = some y ↔ xs[i]? = some y ∨ i = xs.length ∧ x = y := by
  rcases Nat.lt_trichotomy i xs.length with h | rfl | h
  · simp [List.getElem?_append_left h, Nat.ne_of_lt h]
  · simp
  · have hout : (xs ++ [x])[i]? = none :=
      List.getElem?_eq_none (by rw [List.length_append, List.length_singleton]; exact h)
    rw [hout, List.getElem?_eq_none (Nat.le_of_lt h)]
    simp [Nat.ne_of_gt h]

namespace Registry

variable {tools : List Tool} {handoffs : List Handoff} {r : Registry} {n : String}

theorem toolNames_eq (r : Registry) : r.toolNames = r.tools.map (·.name) ++ r.handoffs.map (·.name) := by
  simp [toolNames, all, Handoff.tool]

theorem toolNames_nodup (r : Registry) : r.toolNames.Nodup := r.toolNames_eq ▸ r.distinct

theorem get?_eq_some_iff {t : Tool} : r.get? n = some t ↔ t ∈ r.all ∧ t.name = n :=
  find?_name_iff Tool.name r.toolNames_nodup

theorem handoff?_eq_some_iff {h : Handoff} : r.handoff? n = some h ↔ h ∈ r.handoffs ∧ h.name = n :=
  find?_name_iff Handoff.name (List.nodup_append.1 r.distinct).2.1

theorem get?_of_mem {t : Tool} (h : t ∈ r.tools) : r.get? t.name = some t :=
  get?_eq_some_iff.2 ⟨List.mem_append_left _ h, rfl⟩

/-- The name of a tool is that of no handoff. -/
theorem handoff?_of_mem {t : Tool} (h : t ∈ r.tools) : r.handoff? t.name = none := by
  rw [handoff?, List.find?_eq_none]
  intro x hx
  have hne := (List.nodup_append.1 r.distinct).2.2 t.name (List.mem_map_of_mem h) x.name (List.mem_map_of_mem hx)
  simpa using hne.symm

/-! ## Clashes -/

/-- What is wrong with the names of tools and handoffs, in the order in which it is looked for. -/
def clashes (tools : List Tool) (handoffs : List Handoff) : List NameClash :=
  let toolNames := tools.map (·.name)
  let handoffNames := handoffs.map (·.name)
  (if toolNames.Nodup then [] else [.tools toolNames]) ++
    (if handoffNames.Nodup then [] else [.handoffs handoffNames]) ++
    (if ∀ n ∈ handoffNames, n ∉ toolNames then [] else [.shared handoffNames toolNames])

theorem clashes_eq_nil_iff :
    clashes tools handoffs = [] ↔ (tools.map (·.name) ++ handoffs.map (·.name)).Nodup := by
  have hshared (ns ms : List String) : (∀ n ∈ ns, n ∉ ms) ↔ ∀ m ∈ ms, ∀ n ∈ ns, m ≠ n :=
    ⟨fun h m hm n hn he => h n hn (he ▸ hm), fun h n hn hm => h n hm n hn rfl⟩
  rw [List.nodup_append, ← hshared]
  simp only [clashes, List.append_eq_nil_iff, and_assoc]
  refine and_congr ?_ (and_congr ?_ ?_) <;> exact ite_eq_left_iff.trans (by simp)

/-- There is one registry of tools and handoffs, if their names allow it. -/
theorem build_eq_ok_iff : build tools handoffs = .ok r ↔ r.tools = tools ∧ r.handoffs = handoffs := by
  constructor
  · intro h
    simp only [build] at h
    split at h
    · split at h
      · split at h
        · cases h
          exact ⟨rfl, rfl⟩
        · cases h
      · cases h
    · cases h
  · rintro ⟨rfl, rfl⟩
    obtain ⟨htools, hhandoffs, hshared⟩ := List.nodup_append.1 r.distinct
    have hdisjoint : ∀ n ∈ r.handoffs.map (·.name), n ∉ r.tools.map (·.name) :=
      fun n hn hn' => hshared n hn' n hn rfl
    rw [build, dif_pos htools, dif_pos hhandoffs, dif_pos hdisjoint]

theorem clashes_of_build (h : build tools handoffs = .ok r) : clashes tools handoffs = [] := by
  obtain ⟨rfl, rfl⟩ := build_eq_ok_iff.1 h
  exact clashes_eq_nil_iff.2 r.distinct

theorem build_eq_error_iff {clash : NameClash} :
    build tools handoffs = .error clash ↔ (clashes tools handoffs).head? = some clash := by
  simp only [build, clashes]
  split
  · split
    · split <;> simp
    · simp
  · simp

/-! ## The index -/

namespace Index

/-- An index of tools, in their order, and of handoffs. -/
structure Holds (x : Index) (tools : List Tool) (handoffs : List Handoff) : Prop where
  row : x.tools.toList = tools
  places : ∀ (n : String) (i : Nat), x.places[n]? = some i ↔ (tools.map (·.name))[i]? = some n
  named : ∀ (n : String) (h : Handoff), x.handoffs[n]? = some h ↔ h ∈ handoffs ∧ h.name = n

variable {x : Index}

theorem Holds.empty : Holds .empty [] [] := ⟨rfl, by simp [Index.empty], by simp [Index.empty]⟩

theorem Holds.insert {t : Tool} (hx : x.Holds tools handoffs) (ht : t.name ∉ tools.map (·.name)) :
    (x.insert t).Holds (tools ++ [t]) handoffs where
  row := by simp [Index.insert, hx.row]
  named := hx.named
  places n i := by
    have hsize : x.tools.size = (tools.map (·.name)).length := by simp [← hx.row]
    have hget : (x.insert t).places[n]? = if t.name = n then some x.tools.size else x.places[n]? := by
      simp [Index.insert, Std.HashMap.getElem?_insert]
    rw [hget, List.map_append, List.map_singleton, getElem?_concat_iff, hsize]
    -- The new name is at no place yet, and gets the next one; the others keep theirs.
    split
    next hn =>
      have hnone : (tools.map (·.name))[i]? ≠ some n := fun hi => ht (hn ▸ List.mem_of_getElem? hi)
      rw [Option.some_inj, eq_comm (a := i)]
      simp only [hnone, hn, false_or, and_true]
    next hn => simp only [hn, and_false, or_false, hx.places]

theorem Holds.insertHandoff {h : Handoff} (hx : x.Holds tools handoffs) (ht : h.name ∉ tools.map (·.name))
    (hh : h.name ∉ handoffs.map (·.name)) : (x.insertHandoff h).Holds (tools ++ [h.tool]) (handoffs ++ [h]) where
  row := (hx.insert (t := h.tool) ht).row
  places := (hx.insert (t := h.tool) ht).places
  named n h' := by
    have hget : (x.insertHandoff h).handoffs[n]? = if h.name = n then some h else x.handoffs[n]? := by
      simp [Index.insertHandoff, Std.HashMap.getElem?_insert]
    rw [hget, List.mem_append, List.mem_singleton]
    split
    next hn =>
      have hother : h'.name = n → h' ∉ handoffs := fun hn' hm => hh (hn.trans hn'.symm ▸ List.mem_map_of_mem hm)
      rw [Option.some_inj]
      constructor
      · rintro rfl
        exact ⟨.inr rfl, hn⟩
      · rintro ⟨hm | hm, hn'⟩
        · exact absurd hm (hother hn')
        · exact hm.symm
    next hn =>
      rw [hx.named]
      constructor
      · rintro ⟨hm, hn'⟩
        exact ⟨.inl hm, hn'⟩
      · rintro ⟨hm | rfl, hn'⟩
        · exact ⟨hm, hn'⟩
        · exact absurd hn' hn

/-- The loop over the tools. -/
theorem Holds.insertAll : ∀ {ts tools : List Tool} {x : Index}, x.Holds tools handoffs →
    ((tools ++ ts).map (·.name)).Nodup → (ts.foldl Index.insert x).Holds (tools ++ ts) handoffs
  | [], tools, x, hx, _ => by simpa using hx
  | t :: ts, tools, x, hx, h => by
    rw [List.append_cons] at h ⊢
    exact (hx.insert (not_mem_names Tool.name h)).insertAll h

/-- The loop over the handoffs. -/
theorem Holds.insertHandoffs : ∀ {hs handoffs : List Handoff} {tools : List Tool} {x : Index},
    x.Holds tools handoffs → ((tools ++ hs.map Handoff.tool).map (·.name)).Nodup →
    ((handoffs ++ hs).map (·.name)).Nodup →
    (hs.foldl Index.insertHandoff x).Holds (tools ++ hs.map Handoff.tool) (handoffs ++ hs)
  | [], handoffs, tools, x, hx, _, _ => by simpa using hx
  | h :: hs, handoffs, tools, x, hx, ht, hh => by
    rw [List.map_cons, List.append_cons] at ht
    rw [List.append_cons] at hh
    rw [List.map_cons, List.append_cons tools, List.append_cons handoffs]
    exact (hx.insertHandoff (not_mem_names Tool.name ht) (not_mem_names Handoff.name hh)).insertHandoffs ht hh

theorem repeats_eq_false_iff : ∀ {ns : List String} {seen : Std.HashSet String},
    repeats seen ns = false ↔ ns.Nodup ∧ ∀ n ∈ ns, n ∉ seen
  | [], seen => by simp [repeats]
  | n :: ns, seen => by
    have hrest : (∀ m ∈ ns, m ∉ seen.insert n) ↔ n ∉ ns ∧ ∀ m ∈ ns, m ∉ seen := by
      simp only [Std.HashSet.mem_insert, beq_iff_eq, not_or]
      exact ⟨fun h => ⟨fun hn => (h n hn).1 rfl, fun m hm => (h m hm).2⟩,
        fun ⟨hn, h⟩ m hm => ⟨fun he => hn (he ▸ hm), h m hm⟩⟩
    have hseen : seen.contains n = false ↔ n ∉ seen := by simp
    rw [repeats, Bool.or_eq_false_iff, hseen, repeats_eq_false_iff, hrest, List.nodup_cons, List.forall_mem_cons]
    tauto

theorem repeats_empty (ns : List String) : repeats ∅ ns = !decide ns.Nodup := by
  have h : repeats ∅ ns = false ↔ ns.Nodup := by simp [repeats_eq_false_iff]
  by_cases hn : ns.Nodup
  · rw [h.2 hn, decide_eq_true hn]
    rfl
  · rw [eq_true_of_ne_false (mt h.1 hn), decide_eq_false hn]
    rfl

/-- An index is refused for the first of the clashes, as a registry is. -/
theorem build_eq (tools : List Tool) (handoffs : List Handoff) : build tools handoffs =
    match (clashes tools handoffs).head? with
    | some clash => .error clash
    | none => .ok (handoffs.foldl insertHandoff (tools.foldl insert .empty)) := by
  have hshared (ns ms : List String) : ns.any ms.contains = !decide (∀ n ∈ ns, n ∉ ms) := by
    rw [Bool.eq_iff_iff]
    simp
  simp only [build, clashes, repeats_empty, hshared]
  generalize tools.map (·.name) = toolNames
  generalize handoffs.map (·.name) = handoffNames
  by_cases ht : toolNames.Nodup
  · by_cases hh : handoffNames.Nodup
    · by_cases hs : ∀ n ∈ handoffNames, n ∉ toolNames
      · rw [if_pos hs, decide_eq_true hs]
        simp [ht, hh]
      · rw [if_neg hs, decide_eq_false hs]
        simp [ht, hh]
    · simp [ht, hh]
  · simp [ht]

/-- An index that leads where a registry does. -/
structure Keeps (x : Index) (r : Registry) : Prop where
  row : x.tools.toList = r.all
  get? : ∀ n, x.get? n = r.get? n
  handoff? : ∀ n, x.handoff? n = r.handoff? n

theorem get?_eq_some_iff {t : Tool} :
    x.get? n = some t ↔ ∃ i : Nat, x.places[n]? = some i ∧ x.tools[i]? = some t := by
  unfold get?
  split
  next h => simp [h]
  next i h =>
    have hi := x.inRow n i h
    simp [h, Array.getElem?_eq_getElem hi]

theorem Holds.keeps (h : x.Holds r.all r.handoffs) : x.Keeps r where
  row := h.row
  get? n := by
    ext t
    rw [get?_eq_some_iff, Registry.get?_eq_some_iff, mem_named_iff]
    simp only [h.places, ← h.row, Array.getElem?_toList]
  handoff? n := by
    ext t
    exact (h.named n t).trans handoff?_eq_some_iff.symm

/-- With every registry comes an index that leads where it does. -/
theorem build_keeps (h : Registry.build tools handoffs = .ok r) :
    ∃ x, build tools handoffs = .ok x ∧ x.Keeps r := by
  have hnone := clashes_of_build h
  obtain ⟨rfl, rfl⟩ := build_eq_ok_iff.1 h
  have htools : (r.tools.foldl Index.insert .empty).Holds r.tools [] :=
    Holds.empty.insertAll (List.nodup_append.1 r.distinct).1
  rw [build_eq, hnone]
  exact ⟨_, rfl, (htools.insertHandoffs r.toolNames_nodup (List.nodup_append.1 r.distinct).2.1).keeps⟩

end Index

end Registry
end ToolAgent
