import Tint.Command.Options
import Tint.Command.Work
import Tint.Editor.Page
set_option autoImplicit false

/-!
# Runs

A run settles its settings, chooses the rule file, reads all inputs, loads the rules and paints
the inputs as the elements of one page, in this order.  Each stage is a function of what has been
read for it.  So a run up to its results is a function of what the files and the standard input
hold at its start (`Surroundings.run`).
-/

namespace Tint

/-! ## Settings -/

namespace Settings

/-- The settings of the user's home directory, where `fetched` is what their file holds.  A missing
file is as good as an empty one; one that is of no use is reported and passed over. -/
def ofHome (path : Path) (fetched : Except Fault Text) : Work Settings :=
  match load fetched with
  | .ok settings =>
    ⟨.ok settings, [⟨.debug, .settings, "Loaded settings from ".toList ++ path.display⟩]⟩
  | .error (.unreadable fault) =>
    if fault.isAbsence then pure {}
    else ⟨.ok {}, [⟨.warn, .settings,
      SettingsError.message path (.unreadable fault) ++ "; using defaults".toList⟩]⟩
  | .error .malformed =>
    ⟨.ok {}, [⟨.warn, .settings,
      SettingsError.message path .malformed ++ "; using defaults".toList⟩]⟩

/-- The settings of a file that the user names, where `fetched` is what it holds. -/
def ofNamed (path : Path) (fetched : Except Fault Text) : Work Settings :=
  .ofExcept ((load fetched).mapError (.settings path))

/-- The settings with the user's options in place of theirs. -/
def withOptions (o : Options) (settings : Settings) : Settings :=
  { settings with
    rules := o.rules.or settings.rules
    wrap := o.wrap || settings.wrap
    stripLeadingBlank := !o.keepLeadingBlank && settings.stripLeadingBlank }

end Settings

/-! ## Inputs -/

/-- An input, ready to be painted. -/
structure Input where
  name : Text
  text : Text
  deriving DecidableEq, Repr, Inhabited

namespace Input

/-- The input that a file makes, where `fetched` is what it holds. -/
def ofFile (settings : Settings) (path : Path) (fetched : Except Fault Text) :
    Except RunError Input :=
  match fetched with
  | .ok t => .ok ⟨path.inputName, settings.prepare t⟩
  | .error fault => .error (.input path fault)

/-- The input that the standard input makes, where `fetched` is what it holds. -/
def ofStdin (settings : Settings) (fetched : Except Fault Text) : Except RunError Input :=
  match fetched with
  | .ok t => .ok ⟨"stdin".toList, settings.prepare t⟩
  | .error fault => .error (.stream fault)

end Input

/-- The inputs as the contents of editors on one page. -/
def Page.ofInputs (inputs : List Input) : Page where
  elements := inputs.map fun i => { selector := Highlighter.contentSelector, text := i.text }

/-! ## Rules -/

/-- The records of a rule file that was read: the tiers without an opening test, then the
dropped lines. -/
def RuleFile.Contents.records (contents : RuleFile.Contents) : List LogRecord :=
  contents.rules.untested.map (fun _ => LogRecord.testTooLarge) ++
    contents.diagnostics.map LogRecord.ofDiagnostic

/-- Loads the rules of a source into a highlighter, where `fetched` is what the source holds. -/
def Highlighter.loadFrom (h : Highlighter) (source : RuleSource) (fetched : Except Fault Text) :
    Work Highlighter :=
  let loaded := RuleFile.load fetched
  match loaded with
  | .ok contents =>
    ⟨.ok (h.withLoaded loaded),
      contents.records ++
        [⟨.info, .highlighter, "[HighLight] Loaded ".toList ++
          Text.decimal contents.rules.ruleCount ++ " rules from ".toList ++
          source.describe ++ " for ".toList ++ h.selector⟩]⟩
  | .error e =>
    ⟨.error (.load e),
      [⟨.error, .highlighter, "[HighLight] ".toList ++ e.message ++ " (".toList ++
        source.describe ++ [')']⟩]⟩

/-! ## Results -/

/-- The name of the file for the result of an input. -/
def Path.outputName (name : Text) : Path := Text.bytes (name ++ ".html".toList)

/-- A finished result under the name of its input. -/
structure RunResult where
  name : Text
  settings : Settings
  painting : Painting
  deriving DecidableEq, Repr, Inhabited

namespace RunResult

/-- What is delivered of a result: its HTML, with the wrapper of the settings, and a line feed. -/
def text (r : RunResult) : Text := r.settings.wrapped r.painting.html ++ ['\n']

/-- The file of a directory that a result is written to. -/
def pathIn (directory : Path) (r : RunResult) : Path := directory.join (.outputName r.name)

/-- The results that the elements of a painted page show. -/
def ofPage (settings : Settings) (inputs : List Input) (page : Page) : List RunResult :=
  (inputs.zip page.elements).filterMap fun entry =>
    entry.2.painting.map fun painting => ⟨entry.1.name, settings, painting⟩

end RunResult

/-! ## What is said on the way -/

namespace LogRecord

/-- The record of a page being built. -/
def building : LogRecord := ⟨.debug, .page, "[EditorRender] Building editors".toList⟩

/-- The record of painted inputs. -/
def rendered (count : Nat) : LogRecord :=
  ⟨.info, .command, "Rendered ".toList ++ Text.decimal count ++ " input(s)".toList⟩

/-- The record of a result that has been written to a file. -/
def wrote (path : Path) : LogRecord := ⟨.info, .command, "Wrote ".toList ++ path.display⟩

end LogRecord

/-! ## The run -/

/-- What a run can read. -/
structure Surroundings where
  /-- what the file at a path holds -/
  read : Path → Except Fault Text
  /-- what the standard input holds -/
  stdin : Except Fault Text
  /-- the user's home directory, where the environment names one in UTF-8 -/
  home : Option Text

namespace Surroundings

/-- The settings of the home directory. -/
def homeSettings (s : Surroundings) : Work Settings :=
  match s.home with
  | none => pure {}
  | some home => Settings.ofHome (Settings.pathIn home) (s.read (Settings.pathIn home))

/-- The settings of the file that the user names, or else of the home directory. -/
def fileSettings (s : Surroundings) (o : Options) : Work Settings :=
  match o.settings with
  | none => s.homeSettings
  | some path => Settings.ofNamed path (s.read path)

/-- Reads all inputs: the files in order, or the standard input where no file is named. -/
def readInputs (s : Surroundings) (settings : Settings) (files : List Path) :
    Except RunError (List Input) :=
  match files with
  | [] => (Input.ofStdin settings s.stdin).map ([·])
  | files => files.mapM fun path => Input.ofFile settings path (s.read path)

/-- Loads a rule file into a highlighter. -/
def loadRules (s : Surroundings) (h : Highlighter) (source : RuleSource) : Work Highlighter :=
  h.loadFrom source (source.fetch s.read)

/-- A run up to the results. -/
def run (s : Surroundings) (o : Options) : Work (List RunResult) := do
  let settings ← Settings.withOptions o <$> s.fileSettings o
  let rules ← .ofOption .noRules settings.rules
  let inputs ← .ofExcept (s.readInputs settings o.files)
  .report [.building]
  let page := (Page.ofInputs inputs).buildEditors
  let highlighter ← s.loadRules .forContent (.file rules)
  .report [.rendered (highlighter.appliedTo page)]
  pure (RunResult.ofPage settings inputs (highlighter.apply page))

end Surroundings

end Tint
