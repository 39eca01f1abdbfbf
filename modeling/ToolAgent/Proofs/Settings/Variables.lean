/-
What the environment tells of the settings.

Where each variable that sets anything sets a single setting, what the environment makes is a source of
single settings, each of which is there once (`Single`): what it tells of one of them is the text of the
last variable for it, taken for what it looks like (`source_tells`). Read as text, that is the text written
again (`asText_scalar`), which is the same only where it looks like nothing else.
-/
import Mathlib.Data.List.Induction
import Mathlib.Data.List.Nodup
import ToolAgent.Proofs.Setting.Overlaid
import ToolAgent.Settings.Member

namespace ToolAgent

open Setting (Source entryTells fieldTells)

namespace Settings
namespace Member

theorem label_injective {i j : Member} (h : i.label = j.label) : i = j := by
  cases i <;> cases j <;> simp_all [label]

/-- The key of a setting leads to it. -/
theorem ofKey_key (i : Member) : Step.ofKey i.key = [.name i.group, .name i.label] := by
  cases i <;> decide +kernel

theorem key_injective {i j : Member} (h : i.key = j.key) : i = j := by
  have hsteps := congrArg Step.ofKey h
  rw [ofKey_key, ofKey_key] at hsteps
  exact label_injective (by simpa using (List.cons.inj (List.cons.inj hsteps).2).1)

theorem lower_group (i : Member) : Text.lowerText i.group = i.group := by
  cases i <;> decide +kernel

theorem lower_label (i : Member) : Text.lowerText i.label = i.label := by
  cases i <;> decide +kernel

/-- What stands under the key of one setting tells nothing of another. -/
theorem entryTells_key (i j : Member) (origin : Option String) (v : Scalar) :
    entryTells i.group i.label (j.key, .scalar origin v) =
      if j = i then some (some (.scalar origin v)) else none := by
  rw [entryTells, ofKey_key]
  by_cases h : j = i
  · subst h
    simp [lower_group, lower_label, Setting.tellsAt, fieldTells]
  · have hlabel : j.label ≠ i.label := fun he => h (label_injective he)
    simp [lower_group, lower_label, Setting.tellsAt, fieldTells, h, hlabel]

end Member

/-- A source of single settings, each of which is there once at most. -/
structure Single (source : Source) : Prop where
  distinct : (source.map (·.1)).Nodup
  members : ∀ entry ∈ source, ∃ (i : Member) (v : Scalar), entry = (i.key, .scalar Environment.origin v)

theorem Single.rest {entry : String × Setting} {rest : Source} (h : Single (entry :: rest)) : Single rest where
  distinct := (List.nodup_cons.1 h.distinct).2
  members e he := h.members e (List.mem_cons_of_mem _ he)

theorem Single.setField {source : Source} (h : Single source) (i : Member) (v : Scalar) :
    Single (Datum.setField i.key (.scalar Environment.origin v) source) where
  distinct := by
    rw [Datum.keys_setField]
    split
    · exact h.distinct
    · rename_i hkey
      exact List.nodup_append.2 ⟨h.distinct, List.nodup_singleton _, by grind⟩
  members entry hentry := by
    obtain rfl | hold := Datum.mem_setField hentry
    · exact ⟨i, v, rfl⟩
    · exact h.members entry hold

theorem Single.tells_eq_none {source : Source} (h : Single source) {i : Member} (hi : i.key ∉ source.map (·.1)) :
    source.tells i.group i.label = none := by
  rw [Source.tells, List.findSome?_eq_none_iff]
  intro entry hentry
  rw [List.mem_reverse] at hentry
  obtain ⟨j, v, rfl⟩ := h.members entry hentry
  have hj : j ≠ i := by
    rintro rfl
    exact hi (List.mem_map_of_mem hentry)
  rw [Member.entryTells_key, if_neg hj]

theorem Single.tells_setField {source : Source} (h : Single source) (i j : Member) (v : Scalar) :
    Source.tells (Datum.setField j.key (.scalar Environment.origin v) source) i.group i.label =
      if j = i then some (some (.scalar Environment.origin v)) else source.tells i.group i.label := by
  induction source with
  | nil =>
    rw [Datum.setField, Source.tells_cons, Member.entryTells_key]
    rfl
  | cons entry rest ih =>
    obtain ⟨m, w, rfl⟩ := h.members entry (List.mem_cons_self ..)
    rw [Datum.setField]
    by_cases hkey : m.key = j.key
    · obtain rfl := Member.key_injective hkey
      rw [if_pos rfl, Source.tells_cons, Source.tells_cons, Member.entryTells_key, Member.entryTells_key]
      by_cases hi : m = i
      · subst hi
        rw [h.rest.tells_eq_none (List.nodup_cons.1 h.distinct).1]
        simp
      · simp [hi]
    · rw [if_neg hkey, Source.tells_cons, Source.tells_cons, ih h.rest]
      split <;> simp

end Settings

namespace Environment

open Settings (Member Single)

theorem source_append (env : Environment) (x : String × String) :
    (env ++ [x]).source = match keyOf? x.1 with
      | none => env.source
      | some key => Datum.setField key (.scalar origin (scalar x.2)) env.source := by
  rw [source, List.foldl_append]
  rfl

theorem textOf?_append (env : Environment) (x : String × String) (i : Member) :
    textOf? (env ++ [x]) i = if keyOf? x.1 = some i.key then some x.2 else env.textOf? i := by
  rw [textOf?, List.reverse_append, List.reverse_singleton, List.singleton_append, List.find?_cons]
  split <;> simp_all [textOf?]

theorem source_single {env : Environment} (h : env.NamesMembers) : Single env.source := by
  induction env using List.reverseRecOn with
  | nil => exact ⟨List.nodup_nil, fun _ he => absurd he List.not_mem_nil⟩
  | append_singleton env x ih =>
    have hsingle := ih fun y hy => h y (List.mem_append_left _ hy)
    rw [source_append]
    cases hkey : keyOf? x.1 with
    | none => exact hsingle
    | some key =>
      obtain ⟨i, rfl⟩ := h x (by simp) key hkey
      exact hsingle.setField i _

/-- Of the variables for a setting the last tells what it is. -/
theorem source_tells {env : Environment} (h : env.NamesMembers) (i : Member) :
    env.source.tells i.group i.label = (env.textOf? i).map fun text => some (.scalar origin (scalar text)) := by
  induction env using List.reverseRecOn with
  | nil => rfl
  | append_singleton env x ih =>
    have hnames : NamesMembers env := fun y hy => h y (List.mem_append_left _ hy)
    rw [source_append, textOf?_append]
    cases hkey : keyOf? x.1 with
    | none => simpa using ih hnames
    | some key =>
      obtain ⟨j, rfl⟩ := h x (by simp) key hkey
      dsimp only
      rw [(source_single hnames).tells_setField i j, ih hnames]
      by_cases hj : j = i
      · simp [hj]
      · have hne : j.key ≠ i.key := fun he => hj (Member.key_injective he)
        simp [hj, hne]

theorem scalar_ne_nothing (text : String) : scalar text ≠ .nothing := by
  rw [scalar]
  repeat' split
  all_goals simp

theorem asText_scalar (origin : Option String) (text : String) :
    Setting.asText (.scalar origin (scalar text)) = .ok (rewritten text) := by
  rw [rewritten]
  cases h : scalar text with
  | bool | integer | float | text => rfl
  | nothing => exact absurd h (scalar_ne_nothing text)

theorem rewritten_of_isPlain {text : String} (h : IsPlain text) : rewritten text = text := by
  obtain ⟨htruth, hinteger, hfloat⟩ := h
  simp [rewritten, scalar, htruth, hinteger, hfloat]

end Environment
end ToolAgent
