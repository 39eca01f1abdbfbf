/-
What sources of settings come to when they are put one over the other.

The settings that count are members of sections: a group and a label in it. `Source.tells` reads off a
source alone what it tells of a member. `assemble_agrees` is the law of putting sources together: what is
found of a member in the end is what was told of it last. Each step keeps that (`put_agrees` for a field,
`placed_agrees` for a key of a source), whatever tree the sources before have made.
-/
import ToolAgent.Setting.Key

namespace ToolAgent

theorem lookup_cons_eq {α : Type} (key k : String) (v : α) (fields : List (String × α)) :
    ((key, v) :: fields).lookup k = if k = key then some v else fields.lookup k := by
  rw [List.lookup_cons]
  by_cases h : k = key
  · simp [h]
  · have hne : (k == key) = false := beq_false_of_ne h
    simp [hne, h]

theorem Datum.lookup_setField {α : Type} (key k : String) (v : α) (fields : List (String × α)) :
    (setField key v fields).lookup k = if k = key then some v else fields.lookup k := by
  induction fields with
  | nil => rw [setField, lookup_cons_eq]
  | cons field rest ih =>
    obtain ⟨name, w⟩ := field
    by_cases hname : name = key
    · rw [setField, if_pos hname, lookup_cons_eq, lookup_cons_eq, hname]
      split <;> rfl
    · rw [setField, if_neg hname, lookup_cons_eq, lookup_cons_eq, ih]
      by_cases h : k = name
      · have hkey : k ≠ key := fun he => hname (h ▸ he)
        rw [if_pos h, if_neg hkey, if_pos h]
      · rw [if_neg h, if_neg h]

theorem Datum.keys_setField {α : Type} (key : String) (v : α) (fields : List (String × α)) :
    (setField key v fields).map (·.1) =
      if key ∈ fields.map (·.1) then fields.map (·.1) else fields.map (·.1) ++ [key] := by
  induction fields with
  | nil => rfl
  | cons field rest ih =>
    obtain ⟨name, w⟩ := field
    by_cases hname : name = key
    · simp [setField, hname]
    · rw [setField, if_neg hname, List.map_cons, ih]
      split <;> rename_i hmem <;> simp [hmem, Ne.symm hname]

theorem Datum.mem_setField {α : Type} {key : String} {v : α} {fields : List (String × α)} {field : String × α}
    (h : field ∈ setField key v fields) : field = (key, v) ∨ field ∈ fields := by
  induction fields with
  | nil => exact .inl (List.mem_singleton.1 h)
  | cons first rest ih =>
    obtain ⟨name, w⟩ := first
    rw [setField] at h
    split at h <;> rw [List.mem_cons] at h
    · exact h.imp id (List.mem_cons_of_mem _)
    · obtain rfl | hrest := h
      · exact .inr (List.mem_cons_self ..)
      · exact (ih hrest).imp id (List.mem_cons_of_mem _)

namespace Setting

/-! ## What is told of a member -/

/-- What a field tells of the member with a label: its value. A table is no value, for its own fields are
put in one by one. -/
def fieldTells (label : String) : String × Setting → Option (Option Setting)
  | (_, .table ..) => none
  | (k, v) => if Text.lowerText k = label then some (some v) else none

/-- What a setting tells of a member when it is put where steps lead to from the section: a value, or
that nothing of the section is left, for something else is in its place. -/
def tellsAt (label : String) : List Step → Setting → Option (Option Setting)
  | [], .table _ fields => fields.reverse.findSome? (fieldTells label)
  | [], _ => some none
  | [.name k], v => fieldTells label (k, v)
  | .name _ :: _ :: _, _ => none
  | .place _ :: _, _ => some none

/-- What one setting of a source tells. -/
def entryTells (group label : String) (entry : String × Setting) : Option (Option Setting) :=
  match Step.ofKey entry.1 with
  | .name k :: steps => if Text.lowerText k = group then tellsAt label steps entry.2 else none
  | _ => none

/-- What a source tells of a member. Of its settings the last that tells anything counts. -/
def Source.tells (source : Source) (group label : String) : Option (Option Setting) :=
  source.reverse.findSome? (entryTells group label)

theorem Source.tells_cons (entry : String × Setting) (rest : Source) (group label : String) :
    Source.tells (entry :: rest) group label = (Source.tells rest group label <|> entryTells group label entry) := by
  rw [Source.tells, List.reverse_cons, List.findSome?_append, Source.tells]
  simp

/-- What is found of a member is what was told of it last. What is no scalar may be put together from
several sources, and is no value of a member. -/
def Agrees (found : Option Setting) (told : Option (Option Setting)) : Prop :=
  match found with
  | none => told.join = none
  | some (.scalar origin v) => told = some (some (.scalar origin v))
  | some _ => True

/-! ## Trees -/

def IsTable : Setting → Prop
  | .table .. => True
  | _ => False

/-- A setting with parts. -/
def IsBranch : Setting → Prop
  | .scalar .. => False
  | _ => True

theorem IsBranch.agrees {v : Setting} (h : v.IsBranch) (told : Option (Option Setting)) : Agrees (some v) told := by
  cases v with
  | scalar => exact h.elim
  | list | table => trivial

theorem IsTable.isBranch {v : Setting} (h : v.IsTable) : v.IsBranch := by
  cases v with
  | scalar => exact h
  | list | table => trivial

@[simp]
theorem field?_withField (s : Setting) (key k : String) (v : Setting) :
    (s.withField key v).field? k = if k = key then some v else s.field? k := by
  cases s with
  | table origin fields => exact Datum.lookup_setField key k v fields
  | scalar | list => exact lookup_cons_eq key k v []

theorem withField_isTable (s : Setting) (key : String) (v : Setting) : (s.withField key v).IsTable := by
  cases s <;> trivial

/-- What a setting makes of the one whose place it takes. -/
def merged (v : Setting) (old : Option Setting) : Setting :=
  match v with
  | .table _ fields => putAll (old.getD emptyTable) fields
  | v => v

theorem put_eq (s : Setting) (k : String) (v : Setting) :
    s.put k v = s.withField (Text.lowerText k) (merged v (s.field? (Text.lowerText k))) := by
  cases v <;> simp [put, merged]

theorem put_isTable (s : Setting) (k : String) (v : Setting) : (s.put k v).IsTable := by
  rw [put_eq]
  exact withField_isTable ..

theorem putAll_isTable {s : Setting} (hs : s.IsTable) (fields : List (String × Setting)) : (s.putAll fields).IsTable := by
  induction fields generalizing s with
  | nil => simpa [putAll] using hs
  | cons field rest ih =>
    obtain ⟨k, v⟩ := field
    rw [putAll]
    exact ih (put_isTable s k v)

theorem withItem_isBranch (s : Setting) (i : Nat) (v : Setting) : (s.withItem i v).IsBranch := by
  cases s <;> trivial

/-- Where steps lead, there is something with parts. -/
theorem place_isBranch (v : Setting) (step : Step) (steps : List Step) (s : Setting) :
    (place v (step :: steps) s).IsBranch := by
  match step, steps with
  | .name k, [] => exact (put_isTable s k v).isBranch
  | .name k, _ :: _ => exact (withField_isTable ..).isBranch
  | .place i, [] | .place i, _ :: _ => exact withItem_isBranch ..

/-! ## Fields of a section -/

variable {label : String}

theorem put_agrees {s : Setting} {told : Option (Option Setting)} (h : Agrees (s.field? label) told) (k : String)
    (v : Setting) : Agrees ((s.put k v).field? label) (fieldTells label (k, v) <|> told) := by
  rw [put_eq, field?_withField]
  by_cases hk : label = Text.lowerText k
  · rw [if_pos hk, ← hk]
    cases v with
    | scalar => simp [merged, fieldTells, hk, Agrees]
    | list => trivial
    | table origin fields =>
      cases fields with
      | nil =>
        -- Nothing is put in, so what was there is left.
        cases hold : s.field? label with
        | none => trivial
        | some old => simpa [merged, putAll, fieldTells, hold] using h
      | cons field rest =>
        obtain ⟨name, w⟩ := field
        have htable : (merged (.table origin ((name, w) :: rest)) (s.field? label)).IsTable := by
          rw [merged, putAll]
          exact putAll_isTable (put_isTable ..) rest
        exact htable.isBranch.agrees _
  · have htold : fieldTells label (k, v) = none := by
      cases v <;> simp [fieldTells, Ne.symm hk]
    rw [if_neg hk, htold]
    exact h

/-- What the last of some steps told counts, if each keeps to what it tells. -/
theorem agrees_foldl {α σ : Type} (step : σ → α → σ) (found : σ → Option Setting) (tells : α → Option (Option Setting))
    (hstep : ∀ s told a, Agrees (found s) told → Agrees (found (step s a)) (tells a <|> told)) (l : List α) {s : σ}
    {told : Option (Option Setting)} (h : Agrees (found s) told) :
    Agrees (found (l.foldl step s)) (l.reverse.findSome? tells <|> told) := by
  induction l generalizing s told with
  | nil => exact h
  | cons a l ih =>
    have hrest := ih (hstep s told a h)
    rw [List.foldl_cons, List.reverse_cons, List.findSome?_append]
    cases htold : l.reverse.findSome? tells with
    | none => simpa [htold] using hrest
    | some w => simpa [htold] using hrest

theorem putAll_eq_foldl (s : Setting) (fields : List (String × Setting)) :
    s.putAll fields = fields.foldl (fun s field => s.put field.1 field.2) s := by
  induction fields generalizing s with
  | nil => rw [putAll]; rfl
  | cons field rest ih =>
    obtain ⟨k, v⟩ := field
    rw [putAll, ih]
    rfl

theorem putAll_agrees {s : Setting} {told : Option (Option Setting)} (h : Agrees (s.field? label) told)
    (fields : List (String × Setting)) :
    Agrees ((s.putAll fields).field? label) (fields.reverse.findSome? (fieldTells label) <|> told) := by
  rw [putAll_eq_foldl]
  exact agrees_foldl _ (fun s : Setting => s.field? label) _ (fun _ _ field hs => put_agrees hs field.1 field.2) fields h

/-! ## Keys of a source -/

/-- What a setting makes of a section when it is put where steps lead to from there. -/
def placed (v : Setting) (steps : List Step) (old : Option Setting) : Setting :=
  match steps with
  | [] => merged v old
  | steps => place v steps (old.getD nothing)

theorem place_name (v : Setting) (k : String) (steps : List Step) (s : Setting) :
    place v (.name k :: steps) s =
      s.withField (Text.lowerText k) (placed v steps (s.field? (Text.lowerText k))) := by
  cases steps with
  | nil => exact put_eq s k v
  | cons => rfl

theorem place_list (v : Setting) (i : Int) (steps : List Step) (s : Setting) :
    (place v (.place i :: steps) s).field? label = none := by
  cases steps <;> cases s <;> rfl

theorem placed_agrees {old : Option Setting} {told : Option (Option Setting)}
    (h : Agrees (old.bind (·.field? label)) told) (steps : List Step) (v : Setting) :
    Agrees ((placed v steps old).field? label) (tellsAt label steps v <|> told) := by
  match steps with
  | [] =>
    cases v with
    | scalar | list => rfl
    | table origin fields =>
      have hold : Agrees ((old.getD emptyTable).field? label) told := by
        cases old <;> exact h
      exact putAll_agrees hold fields
  | [.name k] =>
    have hold : Agrees ((old.getD nothing).field? label) told := by
      cases old <;> exact h
    exact put_agrees hold k v
  | .name k :: step :: steps =>
    have hold : Agrees ((old.getD nothing).field? label) told := by
      cases old <;> exact h
    have hplaced : placed v (.name k :: step :: steps) old = (old.getD nothing).withField (Text.lowerText k)
        (place v (step :: steps) (((old.getD nothing).field? (Text.lowerText k)).getD nothing)) := rfl
    rw [hplaced, field?_withField]
    split
    · exact (place_isBranch ..).agrees _
    · exact hold
  | .place i :: steps =>
    rw [placed, place_list]
    · rfl
    · simp

/-! ## Sources -/

/-- A key leads to a name first. -/
theorem ofKey_name (key : String) : ∃ k steps, Step.ofKey key = .name k :: steps := by
  rw [Step.ofKey]
  split
  · rename_i steps hread
    rw [Step.read?] at hread
    split at hread
    · cases hread
    · obtain ⟨rest, -, rfl⟩ := Option.map_eq_some_iff.1 hread
      exact ⟨_, rest, rfl⟩
  · exact ⟨key, [], rfl⟩

theorem place_isTable (v : Setting) (key : String) (s : Setting) : (place v (Step.ofKey key) s).IsTable := by
  obtain ⟨k, steps, hkey⟩ := ofKey_name key
  rw [hkey, place_name]
  exact withField_isTable ..

variable {group : String}

/-- What is found of a member of a section. -/
def found (group label : String) (s : Setting) : Option Setting := (s.field? group).bind (·.field? label)

theorem place_agrees {s : Setting} {told : Option (Option Setting)} (h : Agrees (found group label s) told)
    (key : String) (v : Setting) :
    Agrees (found group label (place v (Step.ofKey key) s)) (entryTells group label (key, v) <|> told) := by
  obtain ⟨k, steps, hkey⟩ := ofKey_name key
  have htells : entryTells group label (key, v) =
      if Text.lowerText k = group then tellsAt label steps v else none := by
    rw [entryTells, hkey]
  rw [htells, hkey, place_name, found, field?_withField]
  by_cases hk : group = Text.lowerText k
  · rw [if_pos hk, ← hk, if_pos rfl]
    exact placed_agrees h steps v
  · rw [if_neg hk, if_neg (Ne.symm hk)]
    exact h

theorem overlay_agrees {s : Setting} {told : Option (Option Setting)} (h : Agrees (found group label s) told)
    (source : Source) : Agrees (found group label (s.overlay source)) (source.tells group label <|> told) := by
  have hfold : s.overlay source = source.foldl (fun s entry => place entry.2 (Step.ofKey entry.1) s) s := rfl
  rw [hfold]
  exact agrees_foldl _ (found group label) _ (fun _ _ entry hs => place_agrees hs entry.1 entry.2) source h

/-- **The last word counts.** When sources are put one over the other, the first lowest, what is found of
a member is what the highest that tells anything of it tells. -/
theorem assemble_agrees (sources : List Source) (group label : String) :
    Agrees (found group label (assemble sources)) (sources.reverse.findSome? (·.tells group label)) := by
  have h : Agrees (found group label emptyTable) none := rfl
  have hall := agrees_foldl overlay (found group label) (·.tells group label)
    (fun _ _ source hs => overlay_agrees hs source) sources h
  simpa [assemble] using hall

/-- What takes the place of a section leaves nothing of it, also when there is a section again. -/
example : (found "agent" "name" (assemble [[("agent.name", .scalar none (.text "low"))], [("agent", nothing)],
    [("agent.description", .scalar none (.text "A clock."))]])).isNone = true := by
  decide +kernel

theorem overlay_isTable {s : Setting} (h : s.IsTable) (source : Source) : (s.overlay source).IsTable := by
  induction source generalizing s with
  | nil => exact h
  | cons entry rest ih => exact ih (place_isTable ..)

theorem assemble_isTable (sources : List Source) : (assemble sources).IsTable := by
  have h (s : Setting) (hs : s.IsTable) : (sources.foldl overlay s).IsTable := by
    induction sources generalizing s with
    | nil => exact hs
    | cons source rest ih => exact ih _ (overlay_isTable hs source)
  exact h emptyTable trivial

end Setting
end ToolAgent
