import Mathlib.Data.List.Basic
import Tint.Command.Run
set_option autoImplicit false

/-!
# What stands in the way of a run

A run may have many obstacles at once: a settings file that is of no use, no rule file, inputs that
cannot be read, rules that cannot be loaded.  `Surroundings.obstacles` lists all of them, in the order
in which a run comes to them, without running anything.  A run ends with the first one
(`Surroundings.result_run_of_obstacles_cons`), and one without obstacles comes to its results
(`Surroundings.result_run_of_obstacles_nil`).
-/

namespace Tint

/-! ## Results and failures -/

/-- The report on the failure, if there is one. -/
def failures {ε δ α : Type} (report : ε → δ) : Except ε α → List δ
  | .ok _ => []
  | .error e => [report e]

theorem mem_failures_iff {ε δ α : Type} {report : ε → δ} {r : Except ε α} {d : δ} :
    d ∈ failures report r ↔ ∃ e, r = .error e ∧ report e = d := by
  cases r <;> simp [failures, eq_comm]

theorem failures_eq_nil_iff {ε δ α : Type} {report : ε → δ} {r : Except ε α} :
    failures report r = [] ↔ ∃ a, r = .ok a := by
  cases r <;> simp [failures]

theorem eq_error_of_failures_eq_cons {ε δ α : Type} {report : ε → δ} {r : Except ε α} {d : δ}
    {later : List δ} (h : failures report r = d :: later) : ∃ e, r = .error e ∧ report e = d :=
  mem_failures_iff.1 (h ▸ List.mem_cons_self)

/-- Going through a list ends with the first failure. -/
theorem mapM_of_flatMap_failures_cons {ε δ α β γ : Type} {fetch : α → Except ε β}
    {report : α → ε → δ} {f : α → Except δ γ} {l : List α} {d : δ} {later : List δ}
    (hok : ∀ a b, fetch a = .ok b → ∃ c, f a = .ok c)
    (herror : ∀ a e, fetch a = .error e → f a = .error (report a e))
    (h : l.flatMap (fun a => failures (report a) (fetch a)) = d :: later) :
    l.mapM f = .error d := by
  induction l with
  | nil => cases h
  | cons a l ih =>
    rw [List.flatMap_cons] at h
    rw [List.mapM_cons]
    cases ha : fetch a with
    | error e =>
      rw [ha] at h
      cases h
      rw [herror a e ha]
      rfl
    | ok b =>
      rw [ha] at h
      obtain ⟨c, hc⟩ := hok a b ha
      rw [hc, ih h]
      rfl

/-- Where nothing fails, going through a list comes to the end. -/
theorem mapM_of_forall_ok {ε α β : Type} {f : α → Except ε β} {g : α → β} {l : List α}
    (h : ∀ a ∈ l, f a = .ok (g a)) : l.mapM f = .ok (l.map g) := by
  induction l with
  | nil => rfl
  | cons a l ih =>
    rw [List.mapM_cons, h a List.mem_cons_self, ih fun b hb => h b (List.mem_cons_of_mem a hb)]
    rfl

namespace Work

variable {α β : Type}

theorem result_bind_ok {w : Work α} {a : α} (f : α → Work β) (h : w.result = .ok a) :
    (w >>= f).result = (f a).result := by
  rw [bind_ok f h]

theorem result_bind_error {w : Work α} {e : RunError} (f : α → Work β) (h : w.result = .error e) :
    (w >>= f).result = .error e := by
  rw [bind_error f h]

theorem result_report_bind (records : List LogRecord) (f : Unit → Work β) :
    (report records >>= f).result = (f ()).result :=
  result_bind_ok f rfl

theorem result_map_ok {w : Work α} {a : α} (f : α → β) (h : w.result = .ok a) :
    (f <$> w).result = .ok (f a) :=
  result_bind_ok (fun a => pure (f a)) h

theorem result_map_error {w : Work α} {e : RunError} (f : α → β) (h : w.result = .error e) :
    (f <$> w).result = .error e :=
  result_bind_error (fun a => pure (f a)) h

end Work

/-! ## What a run works with -/

/-- Where an input comes from. -/
inductive InputSource where
  | file (path : Path)
  | stdin
  deriving DecidableEq

/-- The inputs, in order: the files, or the standard input where no file is named. -/
def Options.sources (o : Options) : List InputSource :=
  if o.files = [] then [.stdin] else o.files.map .file

namespace InputSource

/-- The name of the input among the results. -/
def name : InputSource → Text
  | .file path => path.inputName
  | .stdin => "stdin".toList

/-- The report on an input that cannot be read. -/
def error : InputSource → Fault → RunError
  | .file path => .input path
  | .stdin => .stream

end InputSource

namespace Surroundings

/-- What an input holds. -/
def fetch (s : Surroundings) : InputSource → Except Fault Text
  | .file path => s.read path
  | .stdin => s.stdin

/-- The settings file of a run: the one that the user names, or else that of the home directory. -/
def settingsPath? (s : Surroundings) (o : Options) : Option Path :=
  o.settings.or (s.home.map Settings.pathIn)

/-- The settings of a run: the user's options, then what the settings file says, if it is of use. -/
def settled (s : Surroundings) (o : Options) : Settings :=
  Settings.withOptions o
    (((s.settingsPath? o).bind fun path => (Settings.load (s.read path)).toOption).getD {})

/-- The rule file of a run. -/
def rulesPath? (s : Surroundings) (o : Options) : Option Path := (s.settled o).rules

/-- The result of an input that can be read. -/
def resultOf (s : Surroundings) (o : Options) (rules : RuleSet) (source : InputSource) :
    RunResult where
  name := source.name
  settings := s.settled o
  painting := rules.paint ((s.settled o).prepare ((s.fetch source).toOption.getD []))

/-! ## Obstacles -/

/-- What stands in the way of a run. -/
inductive Obstacle (s : Surroundings) (o : Options) : RunError → Prop where
  /-- the settings file that the user names cannot be read or is malformed -/
  | settings {path : Path} {error : SettingsError} (named : o.settings = some path)
      (useless : Settings.load (s.read path) = .error error) : Obstacle s o (.settings path error)
  /-- neither the user nor the settings name a rule file -/
  | noRules (unnamed : s.rulesPath? o = none) : Obstacle s o .noRules
  /-- an input, or the standard input where no file is named, cannot be read or is not UTF-8 -/
  | input {source : InputSource} {fault : Fault} (mem : source ∈ o.sources)
      (unreadable : s.fetch source = .error fault) : Obstacle s o (source.error fault)
  /-- the rule file cannot be read or is none -/
  | rules {path : Path} {error : LoadError} (named : s.rulesPath? o = some path)
      (useless : RuleFile.load (s.read path) = .error error) : Obstacle s o (.load error)

/-- The failure to use the settings file that the user names. -/
def settingsObstacles (s : Surroundings) (o : Options) : List RunError :=
  o.settings.toList.flatMap fun path =>
    failures (.settings path) (Settings.load (s.read path))

/-- The failure to find a rule file. -/
def rulesObstacles (s : Surroundings) (o : Options) : List RunError :=
  if s.rulesPath? o = none then [.noRules] else []

/-- The failures to read inputs, in the order of the inputs. -/
def inputObstacles (s : Surroundings) (o : Options) : List RunError :=
  o.sources.flatMap fun source => failures source.error (s.fetch source)

/-- The failure to load the rules. -/
def loadObstacles (s : Surroundings) (o : Options) : List RunError :=
  (s.rulesPath? o).toList.flatMap fun path => failures .load (RuleFile.load (s.read path))

/-- All obstacles of a run, in the order in which it comes to them. -/
def obstacles (s : Surroundings) (o : Options) : List RunError :=
  s.settingsObstacles o ++ s.rulesObstacles o ++ s.inputObstacles o ++ s.loadObstacles o

theorem mem_obstacles_iff {s : Surroundings} {o : Options} {e : RunError} :
    e ∈ s.obstacles o ↔ s.Obstacle o e := by
  simp only [obstacles, settingsObstacles, rulesObstacles, inputObstacles, loadObstacles,
    List.mem_append, List.mem_flatMap, Option.mem_toList, mem_failures_iff]
  constructor
  · rintro (((⟨path, hpath, error, hload, rfl⟩ | hnone) | ⟨source, hmem, fault, hfetch, rfl⟩) |
      ⟨path, hpath, error, hload, rfl⟩)
    · exact .settings hpath hload
    · split at hnone
      · rename_i hunnamed
        rw [List.mem_singleton.1 hnone]
        exact .noRules hunnamed
      · cases hnone
    · exact .input hmem hfetch
    · exact .rules hpath hload
  · rintro (⟨hpath, hload⟩ | hnone | ⟨hmem, hfetch⟩ | ⟨hpath, hload⟩)
    · exact .inl (.inl (.inl ⟨_, hpath, _, hload, rfl⟩))
    · exact .inl (.inl (.inr (by simp [hnone])))
    · exact .inl (.inr ⟨_, hmem, _, hfetch, rfl⟩)
    · exact .inr ⟨_, hpath, _, hload, rfl⟩

variable {s : Surroundings} {o : Options}

/-- Without obstacles every input can be read. -/
theorem exists_fetch_of_obstacles_eq_nil (h : s.obstacles o = []) {source : InputSource}
    (hsource : source ∈ o.sources) : ∃ text, s.fetch source = .ok text := by
  cases hfetch : s.fetch source with
  | ok text => exact ⟨text, rfl⟩
  | error fault =>
    have hobstacle := mem_obstacles_iff.2 (Obstacle.input hsource hfetch)
    rw [h] at hobstacle
    cases hobstacle

/-! ## The stages of a run -/

theorem result_homeSettings (s : Surroundings) :
    s.homeSettings.result = .ok ((s.home.bind fun home =>
      (Settings.load (s.read (Settings.pathIn home))).toOption).getD {}) := by
  unfold homeSettings
  cases s.home with
  | none => rfl
  | some home =>
    dsimp only [Option.bind_some]
    unfold Settings.ofHome
    cases Settings.load (s.read (Settings.pathIn home)) with
    | ok settings => rfl
    | error error =>
      cases error with
      | malformed => rfl
      | unreadable fault =>
        dsimp only
        split <;> rfl

theorem result_fileSettings_of_nil (h : s.settingsObstacles o = []) :
    (Settings.withOptions o <$> s.fileSettings o).result = .ok (s.settled o) := by
  unfold settingsObstacles at h
  refine Work.result_map_ok (Settings.withOptions o) ?_
  unfold fileSettings settingsPath?
  cases hpath : o.settings with
  | none =>
    rw [Option.none_or, Option.bind_map]
    exact result_homeSettings s
  | some path =>
    rw [hpath, Option.toList_some, List.flatMap_singleton] at h
    obtain ⟨settings, hload⟩ := failures_eq_nil_iff.1 h
    simp [hload, Settings.ofNamed, Work.ofExcept, Except.mapError, Except.toOption]

theorem result_fileSettings_of_cons {e : RunError} {later : List RunError}
    (h : s.settingsObstacles o = e :: later) :
    (Settings.withOptions o <$> s.fileSettings o).result = .error e := by
  unfold settingsObstacles at h
  refine Work.result_map_error (Settings.withOptions o) ?_
  unfold fileSettings
  cases hpath : o.settings with
  | none =>
    rw [hpath] at h
    cases h
  | some path =>
    rw [hpath, Option.toList_some, List.flatMap_singleton] at h
    obtain ⟨error, hload, rfl⟩ := eq_error_of_failures_eq_cons h
    simp [hload, Settings.ofNamed, Work.ofExcept, Except.mapError]

theorem result_rules_of_some {path : Path} (h : s.rulesPath? o = some path) :
    (Work.ofOption .noRules (s.settled o).rules).result = .ok path := by
  rw [rulesPath?] at h
  rw [h]
  rfl

theorem result_rules_of_none (h : s.rulesPath? o = none) :
    (Work.ofOption .noRules (s.settled o).rules).result = .error .noRules := by
  rw [rulesPath?] at h
  rw [h]
  rfl

/-- Reads the input of a source. -/
def readSource (s : Surroundings) (settings : Settings) (source : InputSource) :
    Except RunError Input :=
  match s.fetch source with
  | .ok t => .ok ⟨source.name, settings.prepare t⟩
  | .error fault => .error (source.error fault)

theorem readInputs_eq_mapM (s : Surroundings) (settings : Settings) (o : Options) :
    s.readInputs settings o.files = o.sources.mapM (s.readSource settings) := by
  unfold readInputs Options.sources
  cases o.files with
  | nil =>
    rw [if_pos rfl, List.mapM_cons, readSource]
    unfold fetch
    cases s.stdin <;> rfl
  | cons path files =>
    have hread : (fun path => Input.ofFile settings path (s.read path)) =
        s.readSource settings ∘ .file := by
      funext path
      cases hpath : s.read path <;> simp [Input.ofFile, readSource, fetch, InputSource.name,
        InputSource.error, hpath]
    rw [if_neg (List.cons_ne_nil path files), List.mapM_map, ← hread]

theorem result_readInputs_of_cons {settings : Settings} {e : RunError} {later : List RunError}
    (h : s.inputObstacles o = e :: later) : s.readInputs settings o.files = .error e := by
  rw [readInputs_eq_mapM]
  refine mapM_of_flatMap_failures_cons ?_ ?_ h
  · intro source t ht
    exact ⟨_, by rw [readSource, ht]⟩
  · intro source fault hfault
    rw [readSource, hfault]

theorem result_readInputs_of_nil (settings : Settings) (h : s.inputObstacles o = []) :
    s.readInputs settings o.files = .ok (o.sources.map fun source =>
      ⟨source.name, settings.prepare ((s.fetch source).toOption.getD [])⟩) := by
  rw [readInputs_eq_mapM]
  refine mapM_of_forall_ok fun source hsource => ?_
  obtain ⟨t, ht⟩ := failures_eq_nil_iff.1 (List.flatMap_eq_nil_iff.1 h source hsource)
  rw [readSource, ht]
  rfl

theorem result_loadRules_of_ok {h : Highlighter} {path : Path} {contents : RuleFile.Contents}
    (hload : RuleFile.load (s.read path) = .ok contents) :
    (s.loadRules h (.file path)).result = .ok { h with rules := some contents.rules } := by
  unfold loadRules Highlighter.loadFrom RuleSource.fetch
  simp [hload, Highlighter.withLoaded, Except.toOption]

theorem result_loadRules_of_error {h : Highlighter} {path : Path} {error : LoadError}
    (hload : RuleFile.load (s.read path) = .error error) :
    (s.loadRules h (.file path)).result = .error (.load error) := by
  unfold loadRules Highlighter.loadFrom RuleSource.fetch
  simp [hload]

/-- The inputs of a page are all painted by a highlighter for the contents of editors. -/
theorem ofPage_apply (settings : Settings) (inputs : List Input) (rules : RuleSet) :
    RunResult.ofPage settings inputs
      (({ Highlighter.forContent with rules := some rules } : Highlighter).apply
        (Page.ofInputs inputs).buildEditors) =
      inputs.map fun i => ⟨i.name, settings, rules.paint i.text⟩ := by
  have hpainted : (({ Highlighter.forContent with rules := some rules } : Highlighter).apply
      (Page.ofInputs inputs).buildEditors).elements = inputs.map fun i =>
        { selector := Highlighter.contentSelector, text := i.text,
          painting := some (rules.paint i.text) } := by
    simp [Highlighter.apply, Page.replaceUnder, Page.ofInputs, Page.buildEditors, Highlighter.forContent,
      Highlighter.forSelector]
  rw [RunResult.ofPage, hpainted]
  clear hpainted
  induction inputs with
  | nil => rfl
  | cons i inputs ih =>
    simp only [List.map_cons, List.zip_cons_cons, List.filterMap_cons, Option.map_some, ih]

/-- A run ends with its first obstacle. -/
theorem result_run_of_obstacles_cons {e : RunError} {later : List RunError}
    (h : s.obstacles o = e :: later) : (s.run o).result = .error e := by
  unfold run
  cases hsettings : s.settingsObstacles o with
  | cons e' l =>
    rw [obstacles, hsettings] at h
    cases h
    exact Work.result_bind_error _ (result_fileSettings_of_cons hsettings)
  | nil =>
    rw [Work.result_bind_ok _ (result_fileSettings_of_nil hsettings)]
    rw [obstacles, hsettings, rulesObstacles, List.nil_append] at h
    cases hrules : s.rulesPath? o with
    | none =>
      rw [hrules, if_pos rfl] at h
      cases h
      exact Work.result_bind_error _ (result_rules_of_none hrules)
    | some path =>
      rw [hrules, if_neg (Option.some_ne_none path), List.nil_append] at h
      rw [Work.result_bind_ok _ (result_rules_of_some hrules)]
      cases hinputs : s.inputObstacles o with
      | cons e' l =>
        rw [hinputs] at h
        cases h
        exact Work.result_bind_error _ (result_readInputs_of_cons hinputs)
      | nil =>
        rw [Work.result_bind_ok _ (result_readInputs_of_nil _ hinputs)]
        rw [hinputs, loadObstacles, hrules, List.nil_append, Option.toList_some,
          List.flatMap_singleton] at h
        obtain ⟨error, hload, rfl⟩ := eq_error_of_failures_eq_cons h
        rw [Work.result_report_bind]
        exact Work.result_bind_error _ (result_loadRules_of_error hload)

/-- A run without obstacles comes to the results of its inputs, in their order. -/
theorem result_run_of_obstacles_nil (h : s.obstacles o = []) :
    ∃ path contents, s.rulesPath? o = some path ∧ RuleFile.load (s.read path) = .ok contents ∧
      (s.run o).result = .ok (o.sources.map (s.resultOf o contents.rules)) := by
  simp only [obstacles, List.append_eq_nil_iff] at h
  obtain ⟨⟨⟨hsettings, hrules⟩, hinputs⟩, hload⟩ := h
  obtain ⟨path, hpath⟩ : ∃ path, s.rulesPath? o = some path := by
    refine Option.ne_none_iff_exists'.1 fun hnone => ?_
    rw [rulesObstacles, if_pos hnone] at hrules
    cases hrules
  rw [loadObstacles, hpath, Option.toList_some, List.flatMap_singleton] at hload
  obtain ⟨contents, hcontents⟩ := failures_eq_nil_iff.1 hload
  refine ⟨path, contents, hpath, hcontents, ?_⟩
  rw [run, Work.result_bind_ok _ (result_fileSettings_of_nil hsettings),
    Work.result_bind_ok _ (result_rules_of_some hpath),
    Work.result_bind_ok _ (result_readInputs_of_nil _ hinputs),
    Work.result_report_bind, Work.result_bind_ok _ (result_loadRules_of_ok hcontents),
    Work.result_report_bind, Work.result_pure, ofPage_apply, List.map_map]
  rfl

end Surroundings

end Tint
