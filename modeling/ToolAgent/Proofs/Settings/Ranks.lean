/-
Which source a setting comes from.

The settings that are loaded are read from the one tree that the sources make, each from its own place
there (`ofSetting_holds`), so what the sources say of a setting decides alone (`holds_of_agrees`): the
environment first, then the file that is asked for, then the default file. A text in the environment is
taken for a truth value or a number where it looks like one, and written again for a setting that is text.
-/
import Mathlib
import ToolAgent.Proofs.Settings.Variables

namespace ToolAgent

theorem bind_eq_ok_iff {ε α β : Type} {x : Except ε α} {f : α → Except ε β} {b : β} :
    (x >>= f) = .ok b ↔ ∃ a, x = .ok a ∧ f a = .ok b := by
  cases x with
  | error e => simp [bind, Except.bind]
  | ok a => simp [bind, Except.bind]

open Setting (Source Section Agrees found assemble)

namespace Settings

/-! ## Reading -/

/-- A setting has the value that was found for it, or the usual one where none was. -/
def Holds (settings : Settings) (i : Member) (v? : Option Setting) : Prop :=
  match v? with
  | none => i.get settings = i.get usual
  | some v => i.read v = .ok (i.get settings)

theorem read_branch {v : Setting} (h : v.IsBranch) (i : Member) (a : i.Value) : i.read v ≠ .ok a := by
  cases v with
  | scalar => exact h.elim
  | list | table => cases i <;> rintro ⟨⟩

theorem read_ok {α : Type} {s : Section} {n : Nat} {label : String} {usual a : α}
    {as : Setting → Except Setting.Mismatch α} (h : s.read n label usual as = .ok a) :
    match (s.member? n label).map (·.2) with
    | none => a = usual
    | some v => as v = .ok a := by
  rw [Section.read] at h
  split at h
  · rename_i hnone
    rw [hnone]
    exact (Except.ok.inj h).symm
  · rename_i step v hsome
    rw [hsome]
    split at h
    · rename_i b hb
      exact hb.trans h
    · cases h

/-- A section has the members that are found in it. -/
theorem inner_ok {path : List Step} {fields : List (String × Setting)} {n : Nat} {name title : String} {s : Section}
    (h : Section.inner ⟨path, .named fields⟩ n name title = .ok s) (i : Member) :
    (s.member? i.place i.label).map (·.2) = i.foundIn (fields.lookup name) := by
  rw [Section.inner] at h
  simp only [Section.member?] at h
  cases hsection : fields.lookup name with
  | none =>
    rw [hsection] at h
    cases h
    rfl
  | some v =>
    rw [hsection] at h
    cases v with
    | scalar => cases h
    | list origin items =>
      cases h
      simp [Section.member?, Member.foundIn, Function.comp_def]
    | table origin fields =>
      cases h
      simp [Section.member?, Member.foundIn, Function.comp_def]

/-- Each setting is read from its own place. -/
theorem ofSetting_holds {s : Setting} (hs : s.IsTable) {settings : Settings} (h : ofSetting s = .ok settings)
    (i : Member) : settings.Holds i (i.foundIn (s.field? i.group)) := by
  cases s with
  | scalar | list => exact hs.elim
  | table origin fields =>
    simp only [ofSetting, bind_eq_ok_iff] at h
    obtain ⟨_, hall, agent, hagent, context, hcontext, name, hname, description, hdescription, systemMessage,
      hsystemMessage, reflects, hreflects, template, htemplate, bufferSize, hbufferSize, statePath, hstatePath,
      hsettings⟩ := h
    cases hall
    cases hsettings
    have hinAgent := inner_ok hagent i
    have hinContext := inner_ok hcontext i
    rw [Setting.field?]
    cases i with
    | name => exact hinAgent ▸ read_ok hname
    | description => exact hinAgent ▸ read_ok hdescription
    | systemMessage => exact hinAgent ▸ read_ok hsystemMessage
    | reflects => exact hinAgent ▸ read_ok hreflects
    | template => exact hinAgent ▸ read_ok htemplate
    | bufferSize => exact hinContext ▸ read_ok hbufferSize
    | statePath => exact hinContext ▸ read_ok hstatePath

/-- What was told of a setting last is what it has, if it is looked for by name. -/
theorem holds_of_agrees {s : Setting} {settings : Settings} {i : Member} {told : Option (Option Setting)}
    (hnamed : ∀ origin items, s.field? i.group ≠ some (.list origin items))
    (hholds : settings.Holds i (i.foundIn (s.field? i.group))) (hagrees : Agrees (found i.group i.label s) told) :
    settings.Holds i told.join := by
  have hfound : i.foundIn (s.field? i.group) = found i.group i.label s := by
    rw [found]
    cases hsection : s.field? i.group with
    | none => rfl
    | some v =>
      cases v with
      | list origin items => exact absurd hsection (hnamed origin items)
      | scalar | table => rfl
  rw [hfound] at hholds
  cases hv : found i.group i.label s with
  | none =>
    rw [hv] at hholds hagrees
    rw [show told.join = none from hagrees]
    exact hholds
  | some v =>
    rw [hv] at hholds hagrees
    cases v with
    | scalar origin v =>
      rw [show told = some (some (.scalar origin v)) from hagrees]
      exact hholds
    -- What has parts may come from several sources, but it is the value of no setting.
    | list origin items =>
      have hbranch : (Setting.list origin items).IsBranch := trivial
      exact absurd hholds (read_branch hbranch i _)
    | table origin fields =>
      have hbranch : (Setting.table origin fields).IsBranch := trivial
      exact absurd hholds (read_branch hbranch i _)

theorem Member.read_scalar {i : Member} {origin : Option String} {text : String} {a : i.Value}
    (h : i.ofText? (Environment.rewritten text) = some a) : i.read (.scalar origin (Environment.scalar text)) = .ok a := by
  have htext := Environment.asText_scalar origin text
  cases i with
  | name | description | template => cases h; exact htext
  | systemMessage | statePath =>
    cases h
    have hv := Environment.scalar_ne_nothing text
    simp only [Member.read, Setting.asOptional]
    split
    · simp_all
    · simp [htext]
  | reflects | bufferSize => cases h

/-! ## Sources -/

/-- The source that a file gives; one that is not there gives nothing. -/
def Gives (fs : Files) (file? : Option String) (source : Source) : Prop :=
  match file? with
  | none => source = []
  | some file => fileSource fs file = .ok source

variable {fs : Files} {env : Environment} {explicit : Option String} {settings : Settings}

theorem gives_read {d : Document} {path text : String} {fields : List (String × Datum)}
    (hdocument : documentAt? fs path = some d) (htext : fs.read d.file = .ok text)
    (hfields : d.format.fields? text = some fields) : Gives fs (some path) (Setting.ofFields d.file fields) := by
  rw [Gives]
  unfold fileSource
  simp only [hdocument, htext, hfields]

/-- What is loaded is read from three sources put one over the other, if it is loaded at all. -/
theorem load_eq_ok_iff :
    load fs env explicit = .ok settings ↔ ∃ base asked, Gives fs (defaultFile? fs) base ∧
      Gives fs (explicitFile? fs explicit) asked ∧ ofSetting (assemble [base, asked, env.source]) = .ok settings := by
  have hmap (r : Except Setting.Mismatch Settings) :
      r.mapError SettingsError.mismatch = .ok settings ↔ r = .ok settings := by
    cases r <;> simp [Except.mapError]
  have hempty (s : Setting) : s.overlay [] = s := rfl
  rw [load]
  cases defaultFile? fs <;> cases explicitFile? fs explicit <;>
    simp [Gives, bind_eq_ok_iff, assemble, hmap, hempty]

/-! ## Ranks -/

/-- What decides a setting. -/
structure Ranked (settings : Settings) (base asked : Source) (env : Environment) (i : Member) : Prop where
  /-- A variable counts before all files, as what its text looks like. -/
  variable_read : ∀ text, env.textOf? i = some text →
    i.read (.scalar Environment.origin (Environment.scalar text)) = .ok (i.get settings)
  /-- A setting that is text is then the text of the variable, written again. -/
  variable_text : ∀ text a, env.textOf? i = some text →
    i.ofText? (Environment.rewritten text) = some a → i.get settings = a
  /-- A text that looks like nothing else is left as it is. -/
  variable_plain : ∀ text a, env.textOf? i = some text → Environment.IsPlain text →
    i.ofText? text = some a → i.get settings = a
  /-- Without a variable the file that is asked for counts before the default file, and what neither
  tells of is as usual. -/
  files : env.textOf? i = none →
    (∀ origin items, (assemble [base, asked, env.source]).field? i.group ≠ some (.list origin items)) →
    settings.Holds i (asked.tells i.group i.label <|> base.tells i.group i.label).join
  /-- A section that is a list in the end has its settings in order. -/
  ordered : ∀ origin items, (assemble [base, asked, env.source]).field? i.group = some (.list origin items) →
    settings.Holds i items[i.place]?

/-- A section in which the last thing that is told of a setting is a value is no list. -/
theorem ne_list_of_agrees {s : Setting} {i : Member} {v : Setting} (h : Agrees (found i.group i.label s) (some (some v)))
    (origin : Option String) (items : List Setting) : s.field? i.group ≠ some (.list origin items) := by
  intro hlist
  rw [found, hlist] at h
  cases h

/-- **The highest source counts**, for each setting alone: the last variable of the environment for it,
then the file that is asked for, then the default file. -/
theorem load_ranks (hload : load fs env explicit = .ok settings) (henv : env.NamesMembers) :
    ∃ base asked, Gives fs (defaultFile? fs) base ∧ Gives fs (explicitFile? fs explicit) asked ∧
      ∀ i, settings.Ranked base asked env i := by
  obtain ⟨base, asked, hbase, hasked, hsettings⟩ := load_eq_ok_iff.1 hload
  refine ⟨base, asked, hbase, hasked, fun i => ?_⟩
  have hholds := ofSetting_holds (Setting.assemble_isTable _) hsettings i
  have hagrees := Setting.assemble_agrees [base, asked, env.source] i.group i.label
  have htold : [base, asked, env.source].reverse.findSome? (·.tells i.group i.label) =
      (env.source.tells i.group i.label <|> asked.tells i.group i.label <|> base.tells i.group i.label) := by
    cases he : env.source.tells i.group i.label <;> cases ha : asked.tells i.group i.label <;> simp [he, ha]
  rw [htold, Environment.source_tells henv i] at hagrees
  have hread (text : String) (htext : env.textOf? i = some text) :
      i.read (.scalar Environment.origin (Environment.scalar text)) = .ok (i.get settings) := by
    rw [htext] at hagrees
    exact holds_of_agrees (ne_list_of_agrees hagrees) hholds hagrees
  have hwritten (text : String) (a : i.Value) (htext : env.textOf? i = some text)
      (ha : i.ofText? (Environment.rewritten text) = some a) : i.get settings = a := by
    have hget := hread text htext
    rw [Member.read_scalar ha] at hget
    exact (Except.ok.inj hget).symm
  exact {
    variable_read := hread
    variable_text := hwritten
    variable_plain := fun text a htext hplain ha =>
      hwritten text a htext (by rwa [Environment.rewritten_of_isPlain hplain])
    files := fun hnone hnamed => by
      rw [hnone] at hagrees
      exact holds_of_agrees hnamed hholds hagrees
    ordered := fun origin items hlist => by
      rw [hlist] at hholds
      exact hholds }

/-! A clock that is set by two files and the environment. -/

def clockDefault : String := "[agent]\nname = \"low\"\ndescription = \"A clock.\"\n"

def clockAsked : String := "\x7b\"agent\": \x7b\"reflect_on_tool_use\": true\x7d\x7d"

def clockFiles : Files where
  here := []
  entries := [(["default.toml"], .file clockDefault), (["asked.json"], .file clockAsked)]

def clockEnvironment : Environment := [("BEE__AGENT__NAME", "helper"), ("bee__context__buffer_size", "4")]

def clock : Settings := { usual with
  name := "helper"
  description := "A clock."
  reflects := true
  bufferSize := some 4 }

theorem clock_default : Gives clockFiles (defaultFile? clockFiles) (Setting.ofFields "default.toml"
    [("agent", .table [("name", .text "low"), ("description", .text "A clock.")])]) := by
  have hfile : defaultFile? clockFiles = some "default" := by decide +kernel
  have hdocument : documentAt? clockFiles "default" = some ⟨"default.toml", .toml⟩ := by decide +kernel
  have htext : clockFiles.read "default.toml" = .ok clockDefault := by decide +kernel
  have hfields : Format.toml.fields? clockDefault =
      some [("agent", .table [("name", .text "low"), ("description", .text "A clock.")])] := by cbv
  rw [hfile]
  exact gives_read hdocument htext hfields

theorem clock_asked : Gives clockFiles (explicitFile? clockFiles (some "asked.json")) (Setting.ofFields "asked.json"
    [("agent", .table [("reflect_on_tool_use", .bool true)])]) := by
  have hfile : explicitFile? clockFiles (some "asked.json") = some "asked.json" := by decide +kernel
  have hdocument : documentAt? clockFiles "asked.json" = some ⟨"asked.json", .json⟩ := by decide +kernel
  have htext : clockFiles.read "asked.json" = .ok clockAsked := by decide +kernel
  have hfields : Format.json.fields? clockAsked =
      some [("agent", .table [("reflect_on_tool_use", .bool true)])] := by cbv
  rw [hfile]
  exact gives_read hdocument htext hfields

theorem clock_load : load clockFiles clockEnvironment (some "asked.json") = .ok clock := by
  rw [load_eq_ok_iff]
  exact ⟨_, _, clock_default, clock_asked, by decide +kernel⟩

theorem clock_names : clockEnvironment.NamesMembers := by
  intro x hx key hkey
  obtain rfl | rfl : x = ("BEE__AGENT__NAME", "helper") ∨ x = ("bee__context__buffer_size", "4") := by
    simpa [clockEnvironment] using hx
  · exact ⟨.name, Option.some.inj (hkey.symm.trans (by decide +kernel))⟩
  · exact ⟨.bufferSize, Option.some.inj (hkey.symm.trans (by decide +kernel))⟩

theorem clock_ranks : load clockFiles clockEnvironment (some "asked.json") = .ok clock ∧
    clockEnvironment.NamesMembers ∧ ∃ base asked, Gives clockFiles (defaultFile? clockFiles) base ∧
      Gives clockFiles (explicitFile? clockFiles (some "asked.json")) asked ∧
      ∀ i, clock.Ranked base asked clockEnvironment i :=
  ⟨clock_load, clock_names, load_ranks clock_load clock_names⟩

/-- A name that looks like a number is not left as it is. -/
theorem number_rewritten : Environment.textOf? [("BEE__AGENT__NAME", "007")] .name = some "007" ∧
    load (Files.empty []) [("BEE__AGENT__NAME", "007")] none = .ok { usual with name := "7" } := by
  decide +kernel

end Settings
end ToolAgent
