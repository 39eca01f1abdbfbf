/-
The program at the console, run in one go or in two.

A run hands out what comes of the things that are said, one after the other (`hearAll`),
and leaves in its file what was stored by then (`converse_keeps`). What comes of one of them
depends on the conversation and the next id alone, and on the id only as far as it is passed
on (`hear_eq`, `hear_like`). So a run that goes on from the file of another has nothing to
make up for (`run_split`).
-/
import ToolAgent.Console
import ToolAgent.Proofs.Archive
import ToolAgent.Proofs.Blueprint
import ToolAgent.Proofs.Client.Anonymous

namespace ToolAgent.Console

/-! ## The agent -/

/-- The agent has the tool `echo`, and no memory. -/
structure Echoes (a : Agent) : Prop where
  tool : Tool.echo ∈ a.registry.tools
  memory : a.memory = []

theorem build_echoes {b : Blueprint} {c : Capabilities} {a : Agent} (hm : b.memory = [])
    (h : { b with tools := [Tool.echo] }.build c = .ok a) : Echoes a := by
  obtain ⟨r, hr, rfl⟩ := Blueprint.build_ok h
  obtain ⟨htools, -⟩ := Registry.build_eq_ok_iff.1 hr
  exact ⟨htools ▸ List.mem_singleton_self _, hm⟩

theorem ofSettings_ok {s : Settings} {c : Console} (h : ofSettings s = .ok c) :
    Echoes c.agent ∧ c.session.client = 0 := by
  unfold ofSettings at h
  split at h
  · cases h
  next b hb =>
    split at h
    · cases h
    next a ha =>
      cases h
      refine ⟨build_echoes ?_ ha, rfl⟩
      unfold Settings.blueprint at hb
      split at hb
      · cases hb
      · cases hb
        rfl

/-- The console that a run starts from has its conversation from the file. -/
theorem start_ok {s : Settings} {path : String} {fs : Files} {c : Console} (hp : s.statePath = some path)
    (h : start s fs = .ok c) :
    ∃ c₀ t, ofSettings s = .ok c₀ ∧ Transcript.load fs path = .ok t ∧ c = c₀.resume t := by
  unfold start at h
  simp only [hp] at h
  split at h
  · cases h
  next c₀ hc₀ =>
    split at h
    · cases h
    next t ht => exact ⟨c₀, t, hc₀, ht, (Except.ok.inj h).symm⟩

theorem start_eq {s : Settings} {path : String} {fs : Files} {c₀ : Console} {t : Transcript}
    (hp : s.statePath = some path) (hc₀ : ofSettings s = .ok c₀) (ht : Transcript.load fs path = .ok t) :
    start s fs = .ok (c₀.resume t) := by
  simp only [start, hc₀, hp, ht]

/-! ## What is said -/

/-- What is handed out for something that was said, and the console after it. -/
def hear (idOf : Nat → String) (c : Console) (saying : String) : List Output × Console :=
  let ended := c.session.turn c.agent (Parrot.client idOf) 0 [.text saying "user" none] .never
  (outputs ended, { c with session := .after ended.2 })

theorem say_eq (idOf : Nat → String) (c : Console) (saying : String) :
    c.say idOf saying = ((c.hear idOf saying).1.map print, (c.hear idOf saying).2) := rfl

def hearAll (idOf : Nat → String) : Console → List String → List Output × Console
  | c, [] => ([], c)
  | c, saying :: sayings =>
    let (os, c) := c.hear idOf saying
    let (more, c) := c.hearAll idOf sayings
    (os ++ more, c)

variable {c c' : Console}

/-- The course of the turn on something that is said. -/
def courseOn (c : Console) (id saying : String) : Course :=
  Parrot.course c.agent id saying (c.session.context.add (.user (.text saying) "user"))

/-- All that comes of something that is said. -/
theorem hear_eq (h : Echoes c.agent) (idOf : Nat → String) (saying : String) :
    let k := c.courseOn (idOf c.session.client) saying
    c.hear idOf saying =
      ((k.events c.agent).map .event ++ [(Ending.of (k.outcome c.agent) (k.events c.agent)).output],
        ⟨c.agent, ⟨(c.session.context.add (.user (.text saying) "user")).addAll (k.stored c.agent),
          c.session.client + 1⟩⟩) := by
  intro k
  let t : Turn Nat := .start c.session.context c.session.client (Token.never.clock 0)
  let ended := c.agent.turn (Parrot.client idOf) [.text saying "user" none] t
  have hturn : ended.1 = .of (k.outcome c.agent) ended.2.events ∧
      ended.2.context = (c.session.context.add (.user (.text saying) "user")).addAll (k.stored c.agent) ∧
      ended.2.events = k.events c.agent ∧ ended.2.client = c.session.client + 1 :=
    Agent.turn_parrot idOf h.tool h.memory rfl saying "user" none
  obtain ⟨hending, hcontext, hevents, hclient⟩ := hturn
  have hhear : c.hear idOf saying =
      (ended.2.events.map .event ++ [ended.1.output], ⟨c.agent, ⟨ended.2.context, ended.2.client⟩⟩) := rfl
  rw [hhear, hending, hcontext, hevents, hclient]

/-- The agent and its window stay, and one id is taken. -/
theorem hear_keeps (h : Echoes c.agent) (idOf : Nat → String) (saying : String) :
    let after := (c.hear idOf saying).2
    after.agent = c.agent ∧ after.session.context.window = c.session.context.window ∧
      after.session.client = c.session.client + 1 := by
  rw [hear_eq h]
  exact ⟨rfl, rfl, rfl⟩

/-- Two consoles at the same point of a conversation, with the same ids for so many things to say. -/
structure SameAhead (idOf idOf' : Nat → String) (c c' : Console) (n : Nat) : Prop where
  agent : c.agent = c'.agent
  context : c.session.context = c'.session.context
  ids : ∀ k < n, idOf (c.session.client + k) = idOf' (c'.session.client + k)

theorem SameAhead.hear {idOf idOf' : Nat → String} {n : Nat} (h : SameAhead idOf idOf' c c' (n + 1))
    (he : Echoes c.agent) (saying : String) :
    (c.hear idOf saying).1 = (c'.hear idOf' saying).1 ∧
      SameAhead idOf idOf' (c.hear idOf saying).2 (c'.hear idOf' saying).2 n := by
  obtain ⟨hagent, hcontext, hids⟩ := h
  have hid : idOf c.session.client = idOf' c'.session.client := hids 0 (Nat.succ_pos n)
  rw [hear_eq he, hear_eq (hagent ▸ he), courseOn, courseOn, hid, hagent, hcontext]
  refine ⟨rfl, rfl, rfl, fun k hk => ?_⟩
  simp only [Nat.add_assoc, Nat.add_comm 1 k]
  exact hids (k + 1) (Nat.succ_lt_succ hk)

/-! ## Up to ids -/

/-- Two consoles at the same point of a conversation, but for the ids. -/
structure Like (c c' : Console) : Prop where
  agent : c.agent = c'.agent
  context : c.session.context.anonymous = c'.session.context.anonymous

theorem Like.transcript (h : c.Like c') : c.transcript.anonymous = c'.transcript.anonymous :=
  congrArg Context.save h.context

theorem hear_anonymous (h : Echoes c.agent) (idOf : Nat → String) (saying : String) :
    let heard := c.session.context.anonymous.add (.user (.text saying) "user")
    let k := Parrot.course c.agent "" saying heard
    (c.hear idOf saying).1.map Output.anonymous =
        (k.events c.agent).map .event ++ [(Ending.of (k.outcome c.agent) (k.events c.agent)).output] ∧
      (c.hear idOf saying).2.session.context.anonymous = heard.addAll (k.stored c.agent) := by
  intro heard k
  let k' := c.courseOn (idOf c.session.client) saying
  have hheard : (c.session.context.add (.user (.text saying) "user")).anonymous = heard :=
    c.session.context.addAll_anonymous [.user (.text saying) "user"]
  have hk : k'.anonymous = k := by simp only [k', courseOn, Parrot.course_anonymous, hheard, k]
  rw [hear_eq h, ← hk, k'.events_anonymous, k'.outcome_anonymous, k'.stored_anonymous]
  constructor
  · rw [List.map_append, List.map_singleton, Ending.output_anonymous, List.map_map, List.map_map]
    rfl
  · rw [← hheard]
    exact Context.addAll_anonymous _ _

theorem hear_like (h : Echoes c.agent) (hl : c.Like c') (idOf idOf' : Nat → String) (saying : String) :
    (c.hear idOf saying).1.map Output.anonymous = (c'.hear idOf' saying).1.map Output.anonymous ∧
      (c.hear idOf saying).2.Like (c'.hear idOf' saying).2 := by
  obtain ⟨hagent, hcontext⟩ := hl
  obtain ⟨houts, hafter⟩ := hear_anonymous h idOf saying
  obtain ⟨houts', hafter'⟩ := hear_anonymous (hagent ▸ h) idOf' saying
  rw [hagent, hcontext] at houts hafter
  exact ⟨houts.trans houts'.symm, hagent, hafter.trans hafter'.symm⟩

/-- Going on from the same point, two consoles come to the same, whatever their ids. -/
theorem hearAll_like (h : Echoes c.agent) (hl : c.Like c') (idOf idOf' : Nat → String) (sayings : List String) :
    (c.hearAll idOf sayings).1.map Output.anonymous = (c'.hearAll idOf' sayings).1.map Output.anonymous ∧
      (c.hearAll idOf sayings).2.Like (c'.hearAll idOf' sayings).2 := by
  induction sayings generalizing c c' with
  | nil => exact ⟨rfl, hl⟩
  | cons saying sayings ih =>
    obtain ⟨houts, hnext⟩ := hear_like h hl idOf idOf' saying
    obtain ⟨hmore, hafter⟩ := ih (c := (c.hear idOf saying).2) h hnext
    simp only [hearAll, List.map_append]
    exact ⟨by rw [houts, hmore], hafter⟩

/-! ## Whole conversations -/

theorem hearAll_append (idOf : Nat → String) (c : Console) (sayings more : List String) :
    c.hearAll idOf (sayings ++ more) =
      ((c.hearAll idOf sayings).1 ++ ((c.hearAll idOf sayings).2.hearAll idOf more).1,
        ((c.hearAll idOf sayings).2.hearAll idOf more).2) := by
  induction sayings generalizing c with
  | nil => rfl
  | cons saying sayings ih => simp only [List.cons_append, hearAll, ih, List.append_assoc]

/-- The agent and its window stay, and an id is taken for each of the things that are said. -/
theorem hearAll_keeps (h : Echoes c.agent) (idOf : Nat → String) (sayings : List String) :
    let after := (c.hearAll idOf sayings).2
    after.agent = c.agent ∧ after.session.context.window = c.session.context.window ∧
      after.session.client = c.session.client + sayings.length := by
  induction sayings generalizing c with
  | nil => exact ⟨rfl, rfl, rfl⟩
  | cons saying sayings ih =>
    obtain ⟨-, hwindow, hclient⟩ := hear_keeps h idOf saying
    obtain ⟨hagent, hwindow', hclient'⟩ := ih (c := (c.hear idOf saying).2) h
    refine ⟨hagent, hwindow'.trans hwindow, hclient'.trans ?_⟩
    rw [hclient, List.length_cons]
    omega

/-- A conversation that another console goes on with, from the same point. -/
theorem hearAll_resumed (h : Echoes c.agent) (idOf idOf₁ idOf₂ : Nat → String) (sayings more : List String)
    (hl : (c.hearAll idOf₁ sayings).2.Like c') :
    (c.hearAll idOf (sayings ++ more)).1.map Output.anonymous =
        ((c.hearAll idOf₁ sayings).1 ++ (c'.hearAll idOf₂ more).1).map Output.anonymous ∧
      (c.hearAll idOf (sayings ++ more)).2.Like (c'.hearAll idOf₂ more).2 := by
  obtain ⟨houts, hthere⟩ := hearAll_like h ⟨rfl, rfl⟩ idOf idOf₁ sayings
  have hagent : (c.hearAll idOf sayings).2.agent = c.agent := (hearAll_keeps h idOf sayings).1
  have hlike : (c.hearAll idOf sayings).2.Like c' :=
    ⟨hthere.agent.trans hl.agent, hthere.context.trans hl.context⟩
  obtain ⟨hmore, hafter⟩ := hearAll_like (hagent ▸ h) hlike idOf idOf₂ more
  rw [hearAll_append, List.map_append, List.map_append, houts, hmore]
  exact ⟨rfl, hafter⟩

/-- All that a conversation changes about a console is in its transcript, but for the next id. -/
theorem resume_transcript {c₀ : Console} {t : Transcript} (h : Echoes (c₀.resume t).agent) (idOf : Nat → String)
    (sayings : List String) :
    let after := ((c₀.resume t).hearAll idOf sayings).2
    (c₀.resume after.transcript).agent = after.agent ∧
      (c₀.resume after.transcript).session.context = after.session.context := by
  intro after
  obtain ⟨hagent, hwindow, -⟩ := hearAll_keeps h idOf sayings
  have hwindow : c₀.session.context.window = after.session.context.window := hwindow.symm
  refine ⟨hagent.symm, ?_⟩
  simp only [resume, Context.load, transcript, Context.save, hwindow]

/-- With the same ids ahead, a conversation comes to the same point. -/
theorem SameAhead.hearAll {idOf idOf' : Nat → String} {sayings : List String}
    (h : SameAhead idOf idOf' c c' sayings.length) (he : Echoes c.agent) :
    (c.hearAll idOf sayings).2.agent = (c'.hearAll idOf' sayings).2.agent ∧
      (c.hearAll idOf sayings).2.session.context = (c'.hearAll idOf' sayings).2.session.context := by
  induction sayings generalizing c c' with
  | nil => exact ⟨h.agent, h.context⟩
  | cons saying sayings ih => exact ih (h.hear he saying).2 he

/-- A console that goes on from the transcript of a conversation is where the conversation is, with the same
ids ahead if its own follow on those of the conversation. -/
theorem SameAhead.resumed {idOf idOf₁ idOf₂ : Nat → String} {c₀ : Console} {t : Transcript} {sayings : List String}
    {n : Nat} (h : SameAhead idOf idOf₁ (c₀.resume t) (c₀.resume t) sayings.length) (he : Echoes (c₀.resume t).agent)
    (hids : ∀ k < n, idOf (c₀.session.client + sayings.length + k) = idOf₂ (c₀.session.client + k)) :
    SameAhead idOf idOf₂ ((c₀.resume t).hearAll idOf sayings).2
      (c₀.resume ((c₀.resume t).hearAll idOf₁ sayings).2.transcript) n := by
  obtain ⟨hagent, hcontext⟩ := h.hearAll he
  obtain ⟨hagent', hcontext'⟩ := resume_transcript he idOf₁ sayings
  obtain ⟨-, -, hclient⟩ := hearAll_keeps he idOf sayings
  refine ⟨hagent.trans hagent'.symm, hcontext.trans hcontext'.symm, fun k hk => ?_⟩
  rw [hclient]
  exact hids k hk

/-! ## Runs -/

/-- Nothing has failed to be saved. -/
def Run.Saves (r : Run) : Prop := ∀ e, r.failure ≠ some (.saving e)

@[simp] theorem Run.behind_printed (printed : List Printed) (r : Run) :
    (r.behind printed).printed = printed ++ r.printed := rfl

@[simp] theorem Run.behind_files (printed : List Printed) (r : Run) : (r.behind printed).files = r.files := rfl

@[simp] theorem Run.behind_failure (printed : List Printed) (r : Run) :
    (r.behind printed).failure = r.failure := rfl

section Converse

variable {idOf idOf' : Nat → String} {path : Option String} {fs fs' : Files} {line saying : String}
  {lines more : List String}

theorem converse_blank (hs : saying? line = none) :
    converse idOf path c fs (line :: lines) = converse idOf path c fs lines := by
  simp only [converse, hs]

theorem converse_said (hs : saying? line = some saying) (hk : (c.hear idOf saying).2.keep path fs = .ok fs') :
    converse idOf path c fs (line :: lines) =
      (converse idOf path (c.hear idOf saying).2 fs' lines).behind ((c.hear idOf saying).1.map print) := by
  simp only [converse, hs, say_eq, hk]

theorem converse_unsaved {e : FileError} (hs : saying? line = some saying)
    (hk : (c.hear idOf saying).2.keep path fs = .error e) :
    converse idOf path c fs (line :: lines) = ⟨(c.hear idOf saying).1.map print, fs, some (.saving e)⟩ := by
  simp only [converse, hs, say_eq, hk]

/-- A run over some lines goes on with more of them from where it has come to. -/
theorem converse_append (h : (converse idOf path c fs lines).Saves) :
    converse idOf path c fs (lines ++ more) =
      (converse idOf path (c.hearAll idOf (lines.filterMap saying?)).2 (converse idOf path c fs lines).files
        more).behind (converse idOf path c fs lines).printed := by
  induction lines generalizing c fs with
  | nil => rfl
  | cons line lines ih =>
    rw [List.cons_append]
    cases hs : saying? line with
    | none =>
      rw [converse_blank hs] at h
      rw [converse_blank hs, converse_blank hs, List.filterMap_cons_none hs, ih h]
    | some saying =>
      cases hk : (c.hear idOf saying).2.keep path fs with
      | error e =>
        rw [converse_unsaved hs hk] at h
        exact absurd rfl (h e)
      | ok fs' =>
        rw [converse_said hs hk] at h
        rw [converse_said hs hk, converse_said hs hk, List.filterMap_cons_some hs, ih h]
        simp only [Run.behind, hearAll, List.append_assoc]

/-- With the same ids ahead, a run over the same lines is the same. -/
theorem converse_congr (h : SameAhead idOf idOf' c c' (lines.filterMap saying?).length) (he : Echoes c.agent) :
    converse idOf path c fs lines = converse idOf' path c' fs lines := by
  induction lines generalizing c c' fs with
  | nil => rfl
  | cons line lines ih =>
    cases hs : saying? line with
    | none =>
      rw [List.filterMap_cons_none hs] at h
      rw [converse_blank hs, converse_blank hs]
      exact ih h he
    | some saying =>
      rw [List.filterMap_cons_some hs] at h
      obtain ⟨houts, hnext⟩ := h.hear he saying
      have hkeep : (c'.hear idOf' saying).2.keep path fs = (c.hear idOf saying).2.keep path fs := by
        simp only [keep, transcript, hnext.context]
      cases hk : (c.hear idOf saying).2.keep path fs with
      | error e => rw [converse_unsaved hs hk, converse_unsaved hs (hkeep.trans hk), houts]
      | ok fs' => rw [converse_said hs hk, converse_said hs (hkeep.trans hk), houts, ih hnext he]

/-- With the ids of both, one run does what two do of which the second goes on from the same point. -/
theorem converse_resumed {idOf₁ idOf₂ : Nat → String} (he : Echoes c.agent)
    (hbefore : SameAhead idOf idOf₁ c c (lines.filterMap saying?).length)
    (hmore : SameAhead idOf idOf₂ (c.hearAll idOf (lines.filterMap saying?)).2 c'
      (more.filterMap saying?).length)
    (h : (converse idOf₁ path c fs lines).Saves) :
    converse idOf path c fs (lines ++ more) =
      (converse idOf₂ path c' (converse idOf₁ path c fs lines).files more).behind
        (converse idOf₁ path c fs lines).printed := by
  have hagent : (c.hearAll idOf (lines.filterMap saying?)).2.agent = c.agent := (hearAll_keeps he idOf _).1
  have hlines : converse idOf path c fs lines = converse idOf₁ path c fs lines := converse_congr hbefore he
  rw [← hlines] at h ⊢
  rw [converse_append h, converse_congr hmore (hagent ▸ he)]

/-- What a run over some lines hands out, and leaves in its file. -/
structure Keeps (fs : Files) (path : String) (c : Console) (sayings : List String) (heard : List Output × Console)
    (r : Run) : Prop where
  failure : r.failure = none
  printed : r.printed = heard.1.map print
  silent : sayings = [] → r.files = fs ∧ heard = ([], c)
  file : sayings ≠ [] → r.files.find? path = some (.file heard.2.transcript.text)

/-- The file is loaded again. -/
theorem Keeps.load {path : String} {sayings : List String} {heard : List Output × Console} {r : Run}
    (h : Keeps fs path c sayings heard r) (hc : Transcript.load fs path = .ok c.transcript) :
    Transcript.load r.files path = .ok heard.2.transcript := by
  by_cases hnil : sayings = []
  · obtain ⟨hfiles, hheard⟩ := h.silent hnil
    rw [hfiles, hheard, hc]
  · exact Transcript.load_of_find? (h.file hnil)

theorem converse_keeps {path : String} (h : (converse idOf (some path) c fs lines).Saves) :
    let sayings := lines.filterMap saying?
    Keeps fs path c sayings (c.hearAll idOf sayings) (converse idOf (some path) c fs lines) := by
  induction lines generalizing c fs with
  | nil => exact ⟨rfl, rfl, fun _ => ⟨rfl, rfl⟩, fun hne => absurd rfl hne⟩
  | cons line lines ih =>
    cases hs : saying? line with
    | none =>
      rw [converse_blank hs] at h ⊢
      rw [List.filterMap_cons_none hs]
      exact ih h
    | some saying =>
      cases hk : (c.hear idOf saying).2.keep (some path) fs with
      | error e =>
        rw [converse_unsaved hs hk] at h
        exact absurd rfl (h e)
      | ok fs' =>
        rw [converse_said hs hk] at h ⊢
        rw [List.filterMap_cons_some hs]
        obtain ⟨hfailure, hprinted, hsilent, hfile⟩ := ih h
        refine ⟨hfailure, ?_, fun hnil => (nomatch hnil), fun _ => ?_⟩
        · simp only [Run.behind, hprinted, hearAll, List.map_append]
        · by_cases hrest : lines.filterMap saying? = []
          · -- It was saved just now, and not since.
            obtain ⟨hfiles, hheard⟩ := hsilent hrest
            simp only [Run.behind, hfiles, hearAll, hheard]
            exact Files.find?_save hk
          · exact hfile hrest

/-- What is in the file after two runs of which the second starts with the conversation of the first. -/
theorem Keeps.file_again {path : String} {sayings sayings' : List String} {heard heard' : List Output × Console}
    {r r' : Run} (h : Keeps fs path c sayings heard r) (h' : Keeps r.files path c' sayings' heard' r')
    (hc : c'.transcript = heard.2.transcript) (hne : sayings ++ sayings' ≠ []) :
    r'.files.find? path = some (.file heard'.2.transcript.text) := by
  by_cases hnil : sayings' = []
  · -- The second run has left the file as the first one has.
    have hsayings : sayings ≠ [] := fun hnil' => hne (List.append_eq_nil_iff.2 ⟨hnil', hnil⟩)
    obtain ⟨hfiles, hheard⟩ := h'.silent hnil
    rw [hfiles, hheard, hc]
    exact h.file hsayings
  · exact h'.file hnil

end Converse

/-! ## One run and two -/

section Split

variable {s : Settings} {path : String} {fs : Files}

/-- A run with settings that are admitted, and a file that can be loaded. -/
theorem runWith_keeps (hp : s.statePath = some path) (hc : start s fs = .ok c) (idOf : Nat → String)
    (lines : List String) (h : (runWith s idOf fs lines).Saves) :
    let r := converse idOf (some path) c fs lines
    let sayings := lines.filterMap saying?
    runWith s idOf fs lines = r.behind [.out greeting] ∧ r.Saves ∧
      Keeps fs path c sayings (c.hearAll idOf sayings) r := by
  intro r sayings
  have hrun : runWith s idOf fs lines = r.behind [.out greeting] := by simp only [runWith, hc, hp, r]
  have hsaves : r.Saves := by
    rw [hrun] at h
    exact h
  exact ⟨hrun, hsaves, converse_keeps hsaves⟩

/-- With settings that are found, a run is a run with them. -/
theorem run_of_load {env : Environment} (h : Settings.load fs env none = .ok s) (idOf : Nat → String)
    (lines : List String) : run idOf fs env lines = runWith s idOf fs lines := by
  simp only [run, h]

/-- Another run starts from what a run has left. -/
theorem start_again {c₀ : Console} {t : Transcript} {idOf : Nat → String} {lines : List String}
    (hp : s.statePath = some path) (hc₀ : ofSettings s = .ok c₀) (ht : Transcript.load fs path = .ok t)
    (h : (runWith s idOf fs lines).Saves) :
    start s (runWith s idOf fs lines).files =
      .ok (c₀.resume ((c₀.resume t).hearAll idOf (lines.filterMap saying?)).2.transcript) := by
  obtain ⟨hrun, -, hkeeps⟩ := runWith_keeps hp (start_eq hp hc₀ ht) idOf lines h
  rw [hrun, Run.behind_files]
  exact start_eq hp hc₀ (hkeeps.load ht)

/-- **One run or two.** The lines are given to one run or, cut in two anywhere, to two runs, of which
the second starts from the files of the first. All runs have the same settings, with a file for the
conversation which can be loaded or is not there, and saving never fails. Then the two hand out
what the one hands out, and leave the same file, up to the ids of the calls; if they have the ids of
the one, they print the very same lines and leave the very same files. -/
theorem run_split (idOf idOf₁ idOf₂ : Nat → String) (before after : List String)
    (hp : s.statePath = some path) (hc : start s fs = .ok c) :
    let whole := runWith s idOf fs (before ++ after)
    let first := runWith s idOf₁ fs before
    let second := runWith s idOf₂ first.files after
    whole.Saves → first.Saves → second.Saves →
      -- Runs of the program are meant, wherever it finds these settings.
      (∀ env, Settings.load fs env none = .ok s →
        run idOf fs env (before ++ after) = whole ∧ run idOf₁ fs env before = first) ∧
      (∀ env, Settings.load first.files env none = .ok s → run idOf₂ first.files env after = second) ∧
      whole.failure = none ∧ first.failure = none ∧ second.failure = none ∧
      (∃ outs outs₁ outs₂ : List Output, whole.printed = .out greeting :: outs.map print ∧
        first.printed = .out greeting :: outs₁.map print ∧ second.printed = .out greeting :: outs₂.map print ∧
        outs.map Output.anonymous = (outs₁ ++ outs₂).map Output.anonymous) ∧
      ((before ++ after).filterMap saying? = [] → whole.files = fs ∧ second.files = fs) ∧
      ((before ++ after).filterMap saying? ≠ [] → ∃ t t' : Transcript, t.anonymous = t'.anonymous ∧
        whole.files.find? path = some (.file t.text) ∧ second.files.find? path = some (.file t'.text)) ∧
      ((∀ k < (before.filterMap saying?).length, idOf k = idOf₁ k) →
        (∀ k < (after.filterMap saying?).length, idOf ((before.filterMap saying?).length + k) = idOf₂ k) →
        first.printed ++ second.printed.tail = whole.printed ∧ second.files = whole.files) := by
  intro whole first second hw h₁ h₂
  refine ⟨fun env hs => ⟨run_of_load hs idOf _, run_of_load hs idOf₁ _⟩, fun env hs => run_of_load hs idOf₂ _, ?_⟩
  obtain ⟨c₀, t, hc₀, ht, rfl⟩ := start_ok hp hc
  obtain ⟨he, hclient⟩ := ofSettings_ok hc₀
  have he : Echoes (c₀.resume t).agent := he
  let sayings := before.filterMap saying?
  let more := after.filterMap saying?
  -- The second run goes on from where the first one has come to, but takes its ids from the start.
  let c₂ := c₀.resume ((c₀.resume t).hearAll idOf₁ sayings).2.transcript
  have hc₂ : start s first.files = .ok c₂ := start_again hp hc₀ ht h₁
  obtain ⟨hagent, hcontext⟩ := resume_transcript he idOf₁ sayings
  obtain ⟨(hwhole : whole = _), -, hkeeps⟩ := runWith_keeps hp hc idOf (before ++ after) hw
  obtain ⟨(hfirst : first = _), hsaves₁, hkeeps₁⟩ := runWith_keeps hp hc idOf₁ before h₁
  obtain ⟨(hsecond : second = _), -, hkeeps₂⟩ := runWith_keeps hp hc₂ idOf₂ after h₂
  rw [List.filterMap_append] at hkeeps ⊢
  have hlike : ((c₀.resume t).hearAll idOf₁ sayings).2.Like c₂ :=
    ⟨hagent.symm, congrArg Context.anonymous hcontext.symm⟩
  obtain ⟨houts, hsame⟩ := hearAll_resumed he idOf idOf₁ idOf₂ sayings more hlike
  rw [hfirst, Run.behind_files] at hsecond hkeeps₂
  rw [hwhole, hfirst, hsecond]
  simp only [Run.behind_failure, Run.behind_printed, Run.behind_files]
  refine ⟨hkeeps.failure, hkeeps₁.failure, hkeeps₂.failure, ⟨_, _, _, congrArg (_ :: ·) hkeeps.printed,
    congrArg (_ :: ·) hkeeps₁.printed, congrArg (_ :: ·) hkeeps₂.printed, houts⟩, ?silent, ?file, ?exact⟩
  case silent =>
    intro hnil
    obtain ⟨hsayings, hmore⟩ := List.append_eq_nil_iff.1 hnil
    exact ⟨(hkeeps.silent hnil).1, (hkeeps₂.silent hmore).1.trans (hkeeps₁.silent hsayings).1⟩
  case file =>
    exact fun hne => ⟨_, _, hsame.transcript, hkeeps.file hne, hkeeps₁.file_again hkeeps₂ rfl hne⟩
  case exact =>
    intro hids₁ hids₂
    have hsame₁ : SameAhead idOf idOf₁ (c₀.resume t) (c₀.resume t) sayings.length := by
      refine ⟨rfl, rfl, fun k hk => ?_⟩
      rw [show (c₀.resume t).session.client = 0 from hclient, Nat.zero_add, hids₁ k hk]
    have hsame₂ : SameAhead idOf idOf₂ ((c₀.resume t).hearAll idOf sayings).2 c₂ more.length := by
      refine hsame₁.resumed he fun k hk => ?_
      rw [hclient, Nat.zero_add, Nat.zero_add, hids₂ k hk]
    rw [converse_resumed he hsame₁ hsame₂ hsaves₁]
    exact ⟨rfl, rfl⟩

/-- Three lines, one of them blank, and a file in the working directory that is not there yet. -/
theorem run_split_greeted :
    let s : Settings := { Settings.usual with statePath := some "state.json" }
    let fs : Files := .empty ["w"]
    let ids : Nat → String := fun k => if k = 0 then "a" else "b"
    let whole := runWith s ids fs ["hi", "  ", "bye"]
    let first := runWith s (fun _ => "a") fs ["hi", "  "]
    let second := runWith s (fun _ => "b") first.files ["bye"]
    whole.Saves ∧ first.Saves ∧ second.Saves ∧ first.printed ++ second.printed.tail = whole.printed ∧
      second.files = whole.files := by
  intro s fs ids whole first second
  obtain ⟨c, hc⟩ : ∃ c, start s fs = .ok c := ⟨_, rfl⟩
  have hw : whole.Saves := fun _ => nofun
  have h₁ : first.Saves := fun _ => nofun
  have h₂ : second.Saves := by
    obtain ⟨c₀, t, hc₀, ht, -⟩ := start_ok rfl hc
    have hstart : start s first.files = .ok _ := start_again rfl hc₀ ht h₁
    intro e
    simp only [second, runWith, hstart]
    nofun
  have hsplit := (run_split ids (fun _ => "a") (fun _ => "b") ["hi", "  "] ["bye"] rfl hc hw h₁ h₂).2.2.2.2.2.2.2.2
  exact ⟨hw, h₁, h₂, hsplit (by decide) (by decide)⟩

end Split

end ToolAgent.Console
