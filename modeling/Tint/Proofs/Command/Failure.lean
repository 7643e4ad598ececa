import Tint.Proofs.Command.Executions
import Tint.Proofs.Command.Obstacles
set_option autoImplicit false

/-!
# Runs that fail

A run that meets an obstacle leaves nothing behind: nothing is printed, no file is written, and there
is one record of the failure, about the first obstacle (`Execution.failsWith_of_obstacle`).  Until it
fails a run only reads, and what it logs on the way are reports of its parts, none of which is the
record of a failed run (`Surroundings.quiet_run`).
-/

namespace Tint

/-- The record says that the run has failed. -/
def LogRecord.isFailure (r : LogRecord) : Bool := r.level == .error && r.source == .command

namespace Work

variable {α β : Type}

/-- The log does not say that the run has failed. -/
def Quiet (w : Work α) : Prop := ∀ r ∈ w.log, r.isFailure = false

theorem quiet_of_log_eq_nil {w : Work α} (h : w.log = []) : w.Quiet := by
  intro r hr
  rw [h] at hr
  cases hr

theorem quiet_of_log_eq_singleton {w : Work α} {r : LogRecord} (h : w.log = [r])
    (hr : r.isFailure = false) : w.Quiet := by
  intro other hother
  rw [h] at hother
  rw [List.mem_singleton.1 hother, hr]

theorem Quiet.bind {w : Work α} {f : α → Work β} (hw : w.Quiet) (hf : ∀ a, (f a).Quiet) :
    (w >>= f).Quiet := by
  cases h : w.result with
  | error e =>
    rw [bind_error f h]
    exact hw
  | ok a =>
    rw [bind_ok f h]
    intro r hr
    rcases List.mem_append.1 hr with hr | hr
    · exact hw r hr
    · exact hf a r hr

theorem Quiet.map {w : Work α} (hw : w.Quiet) (f : α → β) : (f <$> w).Quiet :=
  hw.bind fun _ => quiet_of_log_eq_nil rfl

theorem quiet_ofExcept (r : Except RunError α) : (ofExcept r).Quiet := quiet_of_log_eq_nil rfl

theorem quiet_ofOption (e : RunError) (a : Option α) : (ofOption e a).Quiet := by
  cases a <;> exact quiet_of_log_eq_nil rfl

theorem quiet_report_singleton {r : LogRecord} (h : r.isFailure = false) :
    (report [r]).Quiet := quiet_of_log_eq_singleton rfl h

end Work

namespace Surroundings

variable (s : Surroundings) (o : Options)

theorem quiet_homeSettings : s.homeSettings.Quiet := by
  unfold homeSettings
  cases s.home with
  | none => exact Work.quiet_of_log_eq_nil rfl
  | some home =>
    dsimp only
    unfold Settings.ofHome
    split
    · exact Work.quiet_of_log_eq_singleton rfl rfl
    · split
      · exact Work.quiet_of_log_eq_nil rfl
      · exact Work.quiet_of_log_eq_singleton rfl rfl
    · exact Work.quiet_of_log_eq_singleton rfl rfl

theorem quiet_fileSettings : (s.fileSettings o).Quiet := by
  unfold fileSettings
  cases o.settings with
  | none => exact s.quiet_homeSettings
  | some path => exact Work.quiet_ofExcept _

theorem isFailure_of_mem_records {contents : RuleFile.Contents} {r : LogRecord}
    (h : r ∈ contents.records) : r.isFailure = false := by
  rcases List.mem_append.1 h with h | h
  · obtain ⟨-, -, rfl⟩ := List.mem_map.1 h
    rfl
  · obtain ⟨d, -, rfl⟩ := List.mem_map.1 h
    exact Bool.and_false _

theorem quiet_loadRules (h : Highlighter) (source : RuleSource) :
    (s.loadRules h source).Quiet := by
  unfold loadRules Highlighter.loadFrom
  dsimp only
  split
  · intro r hr
    rcases List.mem_append.1 hr with hr | hr
    · exact isFailure_of_mem_records hr
    · rw [List.mem_singleton.1 hr]
      rfl
  · exact Work.quiet_of_log_eq_singleton rfl rfl

/-- Until it ends a run does not say that it has failed. -/
theorem quiet_run : (s.run o).Quiet := by
  refine ((s.quiet_fileSettings o).map _).bind fun settings => ?_
  refine (Work.quiet_ofOption _ _).bind fun rules => ?_
  refine (Work.quiet_ofExcept _).bind fun inputs => ?_
  refine (Work.quiet_report_singleton rfl).bind fun _ => ?_
  refine (s.quiet_loadRules _ _).bind fun highlighter => ?_
  refine (Work.quiet_report_singleton rfl).bind fun _ => ?_
  exact Work.quiet_of_log_eq_nil rfl

end Surroundings

namespace Execution

/-- The execution ends with a failure and leaves nothing behind but its record. -/
structure FailsWith (tree : FileTree) (e : RunError) (x : Execution) : Prop where
  exit_eq : x.exit = 1
  stdout_eq : x.stdout = []
  tree_eq : x.tree = tree
  /-- of the records that are shown by default, one says that the run has failed, and why -/
  failure : (x.log.filter (LogRecord.isShown LogLevel.defaultThreshold)).filter
    LogRecord.isFailure = [⟨.error, .command, e.message⟩]

theorem failsWith_of_result {s : Surroundings} {o : Options} {e : RunError} (tree : FileTree)
    (h : (s.run o).result = .error e) : FailsWith tree e (ofOptions s tree o) := by
  have hofOptions : ofOptions s tree o =
      { exit := 1, tree := tree, log := (s.run o).log ++ [e.record] } := by
    rw [ofOptions, h]
  have hquiet : ((s.run o).log.filter (LogRecord.isShown LogLevel.defaultThreshold)).filter
      LogRecord.isFailure = [] := by
    refine List.filter_eq_nil_iff.2 fun r hr => ?_
    rw [s.quiet_run o r (List.mem_filter.1 hr).1]
    exact Bool.false_ne_true
  rw [hofOptions]
  refine ⟨rfl, rfl, rfl, ?_⟩
  dsimp only
  rw [List.filter_append, List.filter_append, hquiet]
  rfl

/-- Where something stands in the way of a run, whatever else does, the run fails with the first of
its obstacles and leaves nothing behind. -/
theorem failsWith_of_obstacle {tree : FileTree} {stdin : Except Fault Text} {home : Option Text}
    {arguments : List Bytes} {o : Options} {e : RunError}
    (ho : Options.parse arguments = .run o)
    (he : Surroundings.Obstacle ⟨tree.read, stdin, home⟩ o e) :
    ∃ first later, Surroundings.obstacles ⟨tree.read, stdin, home⟩ o = first :: later ∧
      FailsWith tree first (ofArguments tree stdin home arguments) := by
  have hmem := Surroundings.mem_obstacles_iff.2 he
  obtain ⟨first, later, hobstacles⟩ := List.exists_cons_of_ne_nil (List.ne_nil_of_mem hmem)
  refine ⟨first, later, hobstacles, ?_⟩
  rw [ofArguments_of_run ho]
  exact failsWith_of_result tree (Surroundings.result_run_of_obstacles_cons hobstacles)

/-- The rule file and one input are missing and another input is not UTF-8: the inputs come before
the rules, and the second input before the third. -/
theorem failsWith_of_obstacle_binary :
    let tree := ((FileTree.empty [.ofString "w"]).put [.ofString "w", .ofString "a"]
      (.text "x".toList)).put [.ofString "w", .ofString "b"] .binary
    let arguments := ["-rrules", "-oout", "a", "b", "c"].map Bytes.ofString
    FailsWith tree (.input (.ofString "b") .notUtf8) (ofArguments tree (.ok []) none arguments) := by
  intro tree arguments
  let o : Options :=
    { rules := Bytes.ofString "rules", output := Bytes.ofString "out",
      files := ["a", "b", "c"].map Bytes.ofString }
  let s : Surroundings := ⟨tree.read, .ok [], none⟩
  have hparse : Options.parse arguments = .run o := rfl
  have hrules : s.Obstacle o (.load (.unreadable .notFound)) := .rules rfl rfl
  have hobstacles : s.obstacles o = [.input (.ofString "b") .notUtf8,
      .input (.ofString "c") .notFound, .load (.unreadable .notFound)] := rfl
  obtain ⟨first, later, hfirst, hfails⟩ := failsWith_of_obstacle hparse hrules
  cases hobstacles.symm.trans hfirst
  exact hfails

end Execution

end Tint
