import Tint.Command.Execution
set_option autoImplicit false

/-!
# What executions come to

The command is a program that reads and writes act by act.  Here it is taken apart into what it reads
and what it does then.  Until a run has its results it only reads, so over a file tree it comes to
what `Surroundings.run` makes of the tree as it was at the start (`Attempt.comesTo_results`).  Then it
prints the results, or writes them in sequence (`deliver`, `Attempt.execute_writeAll`).  A whole
execution is the one followed by the other (`Execution.ofArguments_of_run`).
-/

namespace Tint

/-! ## Programs in sequence -/

/-- What is left behind when a program follows that leaves `later` behind. -/
def Outcome.followedBy {α β : Type} (x : Outcome α) (later : Outcome β) : Outcome β :=
  { later with stdout := x.stdout ++ later.stdout, log := x.log ++ later.log }

variable {α β : Type} {stdin : Except Fault Text} {tree : FileTree}

theorem Program.execute_bind (p : Program α) (f : α → Program β) :
    (p >>= f).execute stdin tree = (p.execute stdin tree).followedBy
      ((f (p.execute stdin tree).result).execute stdin (p.execute stdin tree).tree) := by
  change (p.andThen f).execute stdin tree = _
  induction p generalizing tree with
  | done a => rfl
  | report records next ih =>
    simp only [andThen, execute, ih, Outcome.followedBy, List.append_assoc]
  | readFile path next ih => exact ih (tree.read path)
  | readStdin next ih => exact ih stdin
  | writeFile path text next ih =>
    simp only [andThen, execute]
    split
    · exact ih _
    · exact ih _
  | print text next ih =>
    simp only [andThen, execute, ih, Outcome.followedBy, List.append_assoc]

namespace Attempt

/-- An attempt that goes on has what it has left behind so far before the rest. -/
theorem execute_bind_ok {p : Attempt α} {x : Outcome (Except RunError α)} {a : α}
    (hp : p.run.execute stdin tree = x) (ha : x.result = .ok a) (f : α → Attempt β) :
    (p >>= f).run.execute stdin tree =
      x.followedBy ((f a).run.execute stdin x.tree) := by
  refine (Program.execute_bind p.run _).trans ?_
  rw [hp, ha]
  rfl

/-- An attempt that has failed goes no further. -/
theorem execute_bind_error {p : Attempt α} {x : Outcome (Except RunError α)} {e : RunError}
    (hp : p.run.execute stdin tree = x) (he : x.result = .error e) (f : α → Attempt β) :
    (p >>= f).run.execute stdin tree =
      { result := .error e, stdout := x.stdout, tree := x.tree, log := x.log } := by
  refine (Program.execute_bind p.run _).trans ?_
  rw [hp, he]
  simp [ExceptT.bindCont, pure, Program.execute, Outcome.followedBy]

/-! ## Attempts that only read -/

/-- Over the tree the attempt ends and reports as the work does, prints nothing, and leaves the tree as
it is. -/
def ComesTo (stdin : Except Fault Text) (tree : FileTree) (p : Attempt α) (w : Work α) : Prop :=
  p.run.execute stdin tree = { result := w.result, tree := tree, log := w.log }

theorem comesTo_pure (a : α) : ComesTo stdin tree (pure a) (pure a) := rfl

theorem comesTo_ofWork (w : Work α) : ComesTo stdin tree (ofWork w) w := by
  simp [ComesTo, ofWork, Program.execute]

theorem comesTo_report (record : LogRecord) :
    ComesTo stdin tree (report record) (.report [record]) :=
  comesTo_ofWork _

theorem ComesTo.bind {p : Attempt α} {w : Work α} {f : α → Attempt β} {g : α → Work β}
    (hp : ComesTo stdin tree p w) (hf : ∀ a, ComesTo stdin tree (f a) (g a)) :
    ComesTo stdin tree (p >>= f) (w >>= g) := by
  unfold ComesTo at hp hf ⊢
  cases hw : w.result with
  | ok a =>
    rw [execute_bind_ok hp hw, hf, Work.bind_ok g hw]
    rfl
  | error e =>
    rw [execute_bind_error hp hw, Work.bind_error g hw]

theorem ComesTo.map {p : Attempt α} {w : Work α} (hp : ComesTo stdin tree p w) (f : α → β) :
    ComesTo stdin tree (f <$> p) (f <$> w) :=
  hp.bind fun a => comesTo_pure (f a)

/-- What is done with a file is done with what the tree holds. -/
theorem comesTo_fetch_bind {path : Path} {f : Except Fault Text → Attempt α} {w : Work α}
    (h : ComesTo stdin tree (f (tree.read path)) w) : ComesTo stdin tree (fetch path >>= f) w :=
  h

theorem comesTo_fetchStdin_bind {f : Except Fault Text → Attempt α} {w : Work α}
    (h : ComesTo stdin tree (f stdin) w) : ComesTo stdin tree (fetchStdin >>= f) w :=
  h

variable {home : Option Text} {o : Options}

theorem comesTo_settings :
    ComesTo stdin tree (settings home o) (Surroundings.fileSettings ⟨tree.read, stdin, home⟩ o) := by
  unfold settings Surroundings.fileSettings
  cases o.settings with
  | some path => exact comesTo_fetch_bind (comesTo_ofWork _)
  | none =>
    unfold Surroundings.homeSettings
    cases home with
    | none => exact comesTo_pure _
    | some home => exact comesTo_fetch_bind (comesTo_ofWork _)

theorem comesTo_files (settings : Settings) (paths : List Path) :
    ComesTo stdin tree (files settings paths)
      (.ofExcept (paths.mapM fun path => Input.ofFile settings path (tree.read path))) := by
  induction paths with
  | nil => exact comesTo_pure _
  | cons path rest ih =>
    rw [List.mapM_cons, ← Work.ofExcept_bind, files]
    refine comesTo_fetch_bind ((comesTo_ofWork _).bind fun input => ?_)
    rw [← Work.ofExcept_bind]
    exact ih.bind fun others => comesTo_pure _

theorem comesTo_inputs (settings : Settings) (paths : List Path) :
    ComesTo stdin tree (inputs settings paths)
      (.ofExcept (Surroundings.readInputs ⟨tree.read, stdin, home⟩ settings paths)) := by
  cases paths with
  | nil => exact comesTo_fetchStdin_bind (comesTo_ofWork _)
  | cons path rest => exact comesTo_files settings (path :: rest)

/-- Up to its results a run reads, and what it reads is what the tree holds at its start. -/
theorem comesTo_results :
    ComesTo stdin tree (results home o) (Surroundings.run ⟨tree.read, stdin, home⟩ o) := by
  refine (comesTo_settings.map _).bind fun settings => ?_
  refine (comesTo_ofWork _).bind fun rules => ?_
  refine (comesTo_inputs settings o.files).bind fun inputs => ?_
  refine (comesTo_report _).bind fun _ => ?_
  refine comesTo_fetch_bind ((comesTo_ofWork _).bind fun highlighter => ?_)
  refine (comesTo_report _).bind fun _ => ?_
  exact comesTo_pure _

end Attempt

/-! ## Delivery -/

/-- How far the writing of results got. -/
structure Delivery where
  tree : FileTree
  log : List LogRecord := []
  failure : Option Fault := none

/-- The tree after results have been written into a directory one by one, as far as they can be. -/
def deliver (directory : Path) (tree : FileTree) : List RunResult → Delivery
  | [] => { tree := tree }
  | r :: rest =>
    match tree.write (r.pathIn directory) r.text with
    | .error fault => { tree := tree, failure := some fault }
    | .ok after =>
      let d := deliver directory after rest
      { d with log := .wrote (r.pathIn directory) :: d.log }

/-- How the writing of results ends. -/
def Delivery.result (d : Delivery) : Except RunError Unit :=
  match d.failure with
  | none => .ok ()
  | some fault => .error (.stream fault)

namespace Attempt

theorem execute_printAll (results : List RunResult) :
    (printAll results).run.execute stdin tree =
      { result := .ok (), stdout := results.flatMap RunResult.text, tree := tree } := by
  induction results with
  | nil => rfl
  | cons r rest ih =>
    have hfirst : (print r.text).run.execute stdin tree =
        { result := .ok (), stdout := r.text, tree := tree } := by
      simp [print, Program.execute]
    rw [printAll, execute_bind_ok hfirst rfl, ih]
    rfl

/-- Results are written as they are delivered. -/
theorem execute_writeAll (directory : Path) (results : List RunResult) :
    (writeAll directory results).run.execute stdin tree =
      { result := (deliver directory tree results).result
        tree := (deliver directory tree results).tree
        log := (deliver directory tree results).log } := by
  induction results generalizing tree with
  | nil => rfl
  | cons r rest ih =>
    rw [writeAll, deliver]
    cases hwrite : tree.write (r.pathIn directory) r.text with
    | error fault =>
      have hfirst : (write (r.pathIn directory) r.text).run.execute stdin tree =
          { result := .error (.stream fault), tree := tree } := by
        rw [write, ExceptT.run_mk, Program.execute, hwrite]
        rfl
      rw [execute_bind_error hfirst rfl]
      rfl
    | ok after =>
      have hfirst : (write (r.pathIn directory) r.text).run.execute stdin tree =
          { result := .ok (), tree := after } := by
        rw [write, ExceptT.run_mk, Program.execute, hwrite]
        rfl
      rw [execute_bind_ok hfirst rfl, execute_bind_ok (comesTo_report _) rfl, ih]
      rfl

end Attempt

/-! ## Whole executions -/

namespace Execution

/-- What a run with options leaves behind, by its results and their delivery. -/
def ofOptions (s : Surroundings) (tree : FileTree) (o : Options) : Execution :=
  let work := s.run o
  match work.result with
  | .error e => { exit := 1, tree := tree, log := work.log ++ [e.record] }
  | .ok results =>
    match o.output with
    | none => { exit := 0, stdout := results.flatMap RunResult.text, tree := tree, log := work.log }
    | some directory =>
      let d := deliver directory tree results
      match d.failure with
      | none => { exit := 0, tree := d.tree, log := work.log ++ d.log }
      | some fault =>
        { exit := 1, tree := d.tree,
          log := work.log ++ d.log ++ [(RunError.stream fault).record] }

/-- An execution reads all it needs from the tree as it is at the start, and then delivers what it has
made of it. -/
theorem ofArguments_of_run {home : Option Text} {arguments : List Bytes} {o : Options}
    (ho : Options.parse arguments = .run o) :
    ofArguments tree stdin home arguments = ofOptions ⟨tree.read, stdin, home⟩ tree o := by
  have hresults : Attempt.ComesTo stdin tree (Attempt.results home o)
      (Surroundings.run ⟨tree.read, stdin, home⟩ o) := Attempt.comesTo_results
  unfold ofArguments Program.ofArguments ofOptions
  rw [ho]
  dsimp only
  rw [Program.ofOptions, Program.execute_bind, Attempt.ofOptions]
  cases hresult : (Surroundings.run ⟨tree.read, stdin, home⟩ o).result with
  | error e =>
    rw [Attempt.execute_bind_error hresults hresult]
    rfl
  | ok results =>
    rw [Attempt.execute_bind_ok hresults hresult]
    dsimp only
    cases o.output with
    | none =>
      dsimp only
      rw [Attempt.execute_printAll]
      simp [Outcome.followedBy, Program.execute, pure]
    | some directory =>
      dsimp only
      rw [Attempt.execute_writeAll]
      cases hfailure : (deliver directory tree results).failure with
      | none => simp [Delivery.result, hfailure, Outcome.followedBy, Program.execute, pure]
      | some fault => simp [Delivery.result, hfailure, Outcome.followedBy, Program.execute]

end Execution

end Tint
