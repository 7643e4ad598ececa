import Mathlib.Data.List.Forall2
import Tint.Proofs.Command.Executions
import Tint.Proofs.Command.Obstacles
set_option autoImplicit false

/-!
# What a run makes of its inputs

A run that nothing stands in the way of has read its settings, a rule file and all of its inputs
(`Surroundings.HasRead`), and what it delivers of an input follows from these (`Options.finished`).
Where no directory is named to write to, the results are printed in the order of the inputs and no
file is touched, and only such a run ends well (`Execution.exit_eq_zero_iff_prints`).
-/

namespace Tint

/-! ## What a run reads -/

namespace Surroundings

/-- The settings that a run starts from: those of the file that the user names, or else those of the
home directory.  A file in the home directory that is missing or of no use is passed over. -/
inductive HasSettings (s : Surroundings) (o : Options) : Settings → Prop where
  | named {path : Path} {settings : Settings} (named : o.settings = some path)
      (loaded : Settings.load (s.read path) = .ok settings) : HasSettings s o settings
  | home {home : Text} {settings : Settings} (unnamed : o.settings = none)
      (hasHome : s.home = some home)
      (loaded : Settings.load (s.read (Settings.pathIn home)) = .ok settings) :
      HasSettings s o settings
  | default (unnamed : o.settings = none)
      (useless : ∀ home, s.home = some home → ∃ error,
        Settings.load (s.read (Settings.pathIn home)) = .error error) :
      HasSettings s o {}

/-- What a run goes by: the settings, the rule file that the user names or else the settings, and
the texts of the inputs in their order. -/
structure HasRead (s : Surroundings) (o : Options) (settings : Settings)
    (contents : RuleFile.Contents) (texts : List Text) : Prop where
  hasSettings : s.HasSettings o settings
  hasRules : ∃ path file, o.rules.or settings.rules = some path ∧ s.read path = .ok file ∧
    RuleFile.read file = .ok contents
  hasTexts : List.Forall₂ (fun source text => s.fetch source = .ok text) o.sources texts

end Surroundings

namespace Options

variable (o : Options) (settings : Settings)

/-- An input as it is painted: without a blank first line, unless the user or the settings want to
keep it. -/
def prepared (text : Text) : Text :=
  if o.keepLeadingBlank || !settings.stripLeadingBlank then text else text.dropBlankFirstLine

/-- What stands before every result. -/
def opening : Text :=
  if o.wrap || settings.wrap then "<pre><code class=\"".toList ++ settings.wrapClass ++ "\">".toList
  else []

/-- What stands behind every result. -/
def closing : Text := if o.wrap || settings.wrap then "</code></pre>".toList else []

/-- What is delivered of an input. -/
def finished (rules : RuleSet) (text : Text) : Text :=
  o.opening settings ++ rules.render (o.prepared settings text) ++ o.closing settings ++ ['\n']

end Options

namespace Surroundings

variable {s : Surroundings} {o : Options} {settings : Settings} {contents : RuleFile.Contents}
  {texts : List Text}

theorem prepare_withOptions (o : Options) (settings : Settings) (text : Text) :
    (Settings.withOptions o settings).prepare text = o.prepared settings text := by
  unfold Settings.prepare Options.prepared Settings.withOptions
  cases o.keepLeadingBlank <;> cases settings.stripLeadingBlank <;> rfl

theorem wrapped_withOptions (o : Options) (settings : Settings) (html : Text) :
    (Settings.withOptions o settings).wrapped html = o.opening settings ++ html ++ o.closing settings := by
  unfold Settings.wrapped Settings.wrapper? Options.opening Options.closing Settings.withOptions
  cases o.wrap || settings.wrap <;> simp

/-! ## Runs without obstacles -/

theorem HasSettings.settled_eq (h : s.HasSettings o settings) :
    s.settled o = Settings.withOptions o settings := by
  unfold settled settingsPath?
  cases h with
  | named named loaded => simp [named, loaded, Except.toOption]
  | home unnamed hasHome loaded => simp [unnamed, hasHome, loaded, Except.toOption]
  | default unnamed useless =>
    cases hhome : s.home with
    | none => simp [unnamed]
    | some home =>
      obtain ⟨error, herror⟩ := useless home hhome
      simp [unnamed, herror, Except.toOption]

theorem HasSettings.rulesPath?_eq (h : s.HasSettings o settings) :
    s.rulesPath? o = o.rules.or settings.rules := by
  rw [rulesPath?, h.settled_eq]
  rfl

theorem settingsObstacles_eq_nil_iff :
    s.settingsObstacles o = [] ↔ ∃ settings, s.HasSettings o settings := by
  unfold settingsObstacles
  cases hnamed : o.settings with
  | some path =>
    rw [Option.toList_some, List.flatMap_singleton, failures_eq_nil_iff]
    constructor
    · rintro ⟨settings, hload⟩
      exact ⟨settings, .named hnamed hload⟩
    · rintro ⟨settings, hsettings⟩
      cases hsettings with
      | named named loaded =>
        cases hnamed.symm.trans named
        exact ⟨settings, loaded⟩
      | home unnamed => cases hnamed.symm.trans unnamed
      | default unnamed => cases hnamed.symm.trans unnamed
  | none =>
    refine iff_of_true rfl ?_
    cases hhome : s.home with
    | none => exact ⟨{}, .default hnamed fun home hsome => nomatch hhome.symm.trans hsome⟩
    | some home =>
      cases hload : Settings.load (s.read (Settings.pathIn home)) with
      | ok settings => exact ⟨settings, .home hnamed hhome hload⟩
      | error error =>
        refine ⟨{}, .default hnamed fun other hother => ?_⟩
        cases hhome.symm.trans hother
        exact ⟨error, hload⟩

theorem load_eq_ok_iff {path : Path} : RuleFile.load (s.read path) = .ok contents ↔
    ∃ file, s.read path = .ok file ∧ RuleFile.read file = .ok contents := by
  unfold RuleFile.load
  cases s.read path with
  | error fault => simp
  | ok file => cases hread : RuleFile.read file <;> simp [hread, Except.mapError]

theorem inputObstacles_eq_nil_iff : s.inputObstacles o = [] ↔
    ∃ texts, List.Forall₂ (fun source text => s.fetch source = .ok text) o.sources texts := by
  unfold inputObstacles
  induction o.sources with
  | nil => exact iff_of_true rfl ⟨[], .nil⟩
  | cons source sources ih =>
    rw [List.flatMap_cons, List.append_eq_nil_iff, failures_eq_nil_iff, ih]
    constructor
    · rintro ⟨⟨text, htext⟩, texts, htexts⟩
      exact ⟨text :: texts, .cons htext htexts⟩
    · rintro ⟨texts, htexts⟩
      cases htexts with
      | cons htext htexts => exact ⟨⟨_, htext⟩, _, htexts⟩

theorem ruleObstacles_eq_nil_iff : s.rulesObstacles o = [] ∧ s.loadObstacles o = [] ↔
    ∃ path contents, s.rulesPath? o = some path ∧ RuleFile.load (s.read path) = .ok contents := by
  unfold rulesObstacles loadObstacles
  cases s.rulesPath? o with
  | none => simp
  | some path => simp [failures_eq_nil_iff]

/-- A run that nothing stands in the way of is one that can read all it needs. -/
theorem obstacles_eq_nil_iff :
    s.obstacles o = [] ↔ ∃ settings contents texts, s.HasRead o settings contents texts := by
  have hparts : s.obstacles o = [] ↔ s.settingsObstacles o = [] ∧
      (s.rulesObstacles o = [] ∧ s.loadObstacles o = []) ∧ s.inputObstacles o = [] := by
    simp only [obstacles, List.append_eq_nil_iff, and_assoc, and_comm (a := s.loadObstacles o = [])]
  rw [hparts, settingsObstacles_eq_nil_iff, ruleObstacles_eq_nil_iff, inputObstacles_eq_nil_iff]
  constructor
  · rintro ⟨⟨settings, hsettings⟩, ⟨path, contents, hpath, hload⟩, texts, htexts⟩
    rw [hsettings.rulesPath?_eq] at hpath
    obtain ⟨file, hfile, hread⟩ := load_eq_ok_iff.1 hload
    exact ⟨settings, contents, texts, hsettings, ⟨path, file, hpath, hfile, hread⟩, htexts⟩
  · rintro ⟨settings, contents, texts, hsettings, ⟨path, file, hpath, hfile, hread⟩, htexts⟩
    rw [← hsettings.rulesPath?_eq] at hpath
    exact ⟨⟨settings, hsettings⟩, ⟨path, contents, hpath, load_eq_ok_iff.2 ⟨file, hfile, hread⟩⟩,
      texts, htexts⟩

/-! ## Results -/

theorem text_resultOf {source : InputSource} {text : Text} (hsettings : s.HasSettings o settings)
    (htext : s.fetch source = .ok text) (rules : RuleSet) :
    (s.resultOf o rules source).text = o.finished settings rules text := by
  rw [RunResult.text, resultOf, hsettings.settled_eq, htext, wrapped_withOptions,
    prepare_withOptions]
  rfl

namespace HasRead

variable (h : s.HasRead o settings contents texts)
include h

/-- A run that can read all it needs comes to the results of its inputs. -/
theorem result_run : (s.run o).result = .ok (o.sources.map (s.resultOf o contents.rules)) := by
  obtain ⟨path, contents', hpath, hload, hresult⟩ :=
    result_run_of_obstacles_nil (obstacles_eq_nil_iff.2 ⟨settings, contents, texts, h⟩)
  obtain ⟨path', file, hpath', hfile, hread⟩ := h.hasRules
  rw [← h.hasSettings.rulesPath?_eq] at hpath'
  cases hpath.symm.trans hpath'
  cases hload.symm.trans (load_eq_ok_iff.2 ⟨file, hfile, hread⟩)
  exact hresult

theorem map_text : (o.sources.map (s.resultOf o contents.rules)).map RunResult.text =
    texts.map (o.finished settings contents.rules) := by
  rw [List.map_map, ← List.forall₂_eq_eq_eq, List.forall₂_map_left_iff,
    List.forall₂_map_right_iff]
  exact h.hasTexts.imp fun _ _ htext => text_resultOf h.hasSettings htext contents.rules

end HasRead

/-- A run comes to results only if it can read all it needs. -/
theorem hasRead_of_result {results : List RunResult} (h : (s.run o).result = .ok results) :
    ∃ settings contents texts, s.HasRead o settings contents texts := by
  rw [← obstacles_eq_nil_iff]
  cases hobstacles : s.obstacles o with
  | nil => rfl
  | cons e later => cases h.symm.trans (result_run_of_obstacles_cons hobstacles)

/-- Where files are named, a run does not depend on the standard input. -/
theorem run_eq_of_files_ne_nil (h : o.files ≠ []) (stdin : Except Fault Text) :
    ({ s with stdin := stdin } : Surroundings).run o = s.run o := by
  obtain ⟨path, files, hfiles⟩ := List.exists_cons_of_ne_nil h
  unfold run
  rw [hfiles]
  rfl

end Surroundings

namespace Execution

/-- Without a directory to write to, a run ends well exactly if it can read its settings, a rule file
and all of its inputs.  Then it prints what it makes of the inputs, one after the other in their order,
and leaves all files as they are; the standard input counts only where no file is named. -/
theorem exit_eq_zero_iff_prints {tree : FileTree} {stdin : Except Fault Text} {home : Option Text}
    {arguments : List Bytes} {o : Options} (ho : Options.parse arguments = .run o)
    (hout : o.output = none) :
    (ofArguments tree stdin home arguments).exit = 0 ↔ ∃ settings contents texts,
      Surroundings.HasRead ⟨tree.read, stdin, home⟩ o settings contents texts ∧
      (ofArguments tree stdin home arguments).stdout =
        texts.flatMap (o.finished settings contents.rules) ∧
      (ofArguments tree stdin home arguments).tree = tree ∧
      (o.files ≠ [] → ∀ other, ofArguments tree other home arguments =
        ofArguments tree stdin home arguments) := by
  have hexecution (stdin : Except Fault Text) : ofArguments tree stdin home arguments =
      ofOptions ⟨tree.read, stdin, home⟩ tree o := ofArguments_of_run ho
  simp only [hexecution]
  constructor
  · intro hexit
    have hread : ∃ settings contents texts,
        Surroundings.HasRead ⟨tree.read, stdin, home⟩ o settings contents texts := by
      cases hresult : (Surroundings.run ⟨tree.read, stdin, home⟩ o).result with
      | ok results => exact Surroundings.hasRead_of_result hresult
      | error e =>
        rw [ofOptions, hresult] at hexit
        cases hexit
    obtain ⟨settings, contents, texts, hread⟩ := hread
    refine ⟨settings, contents, texts, hread, ?_, ?_, ?_⟩
    · rw [ofOptions, hread.result_run, hout]
      dsimp only
      rw [List.flatMap_def, hread.map_text, ← List.flatMap_def]
    · rw [ofOptions, hread.result_run, hout]
    · intro hfiles other
      have hrun := Surroundings.run_eq_of_files_ne_nil (s := ⟨tree.read, stdin, home⟩) hfiles other
      dsimp only at hrun
      rw [ofOptions, ofOptions, hrun]
  · rintro ⟨settings, contents, texts, hread, -⟩
    rw [ofOptions, hread.result_run, hout]

/-- A tree with a rule file, two inputs and settings that name the rule file. -/
def desk : FileTree :=
  let w : Path := .ofString "w"
  ((((FileTree.empty [w]).put [w, .ofString "r"]
    (.text "%highlight voice: snow-bud v1.3%\nx #111".toList)).put [w, .ofString "a"]
    (.text "x".toList)).put [w, .ofString "b"] (.text "\n<".toList)).put
    [w, .ofString ".snowbud.toml"] (.text "rules = 'r'".toList)

set_option maxRecDepth 4096 in
/-- Of the two inputs one stands twice, and the other has a blank first line, which the user keeps.  A
standard input of no use is not read. -/
theorem exit_eq_zero_iff_prints_repeated :
    let x := ofArguments desk (.error .notUtf8) (some "/w".toList)
      (["a", "b", "--keep-leading-blank", "a"].map Bytes.ofString)
    x.exit = 0 ∧ x.tree = desk ∧ x.stdout =
      "<span style=\"color:#111\">x</span>\n\n&lt;\n<span style=\"color:#111\">x</span>\n".toList := by
  intro x
  have hparse : Options.parse (["a", "b", "--keep-leading-blank", "a"].map Bytes.ofString) =
      .run { keepLeadingBlank := true, files := ["a", "b", "a"].map Bytes.ofString } := rfl
  have hexit : x.exit = 0 := rfl
  obtain ⟨settings, contents, texts, ⟨hsettings, hrules, htexts⟩, hstdout, htree, -⟩ :=
    (exit_eq_zero_iff_prints hparse rfl).1 hexit
  refine ⟨hexit, htree, hstdout.trans ?_⟩
  have hload : Settings.load (desk.read (.ofString "/w/.snowbud.toml")) =
      .ok { rules := some (Bytes.ofString "r") } := rfl
  have hcontents : RuleFile.read "%highlight voice: snow-bud v1.3%\nx #111".toList =
      .ok ⟨.ofDirectives [.keyword "x".toList "#111".toList], []⟩ := rfl
  have hfirst : desk.read (.ofString "a") = .ok "x".toList := rfl
  have hsecond : desk.read (.ofString "b") = .ok "\n<".toList := rfl
  cases hsettings with
  | named named => cases named
  | default _ useless =>
    obtain ⟨error, herror⟩ := useless _ rfl
    cases hload.symm.trans herror
  | home _ hasHome loaded =>
    cases hasHome
    cases hload.symm.trans loaded
    obtain ⟨path, file, hpath, hfile, hread⟩ := hrules
    cases hpath
    cases hfile
    cases hcontents.symm.trans hread
    rcases htexts with _ | ⟨ha, _ | ⟨hb, _ | ⟨hrepeated, _ | _⟩⟩⟩
    cases hfirst.symm.trans ha
    cases hsecond.symm.trans hb
    cases hfirst.symm.trans hrepeated
    rfl

end Execution

end Tint
