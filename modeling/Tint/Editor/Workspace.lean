import Tint.Editor.Page
set_option autoImplicit false

/-!
# Workspaces

A workspace is a page, the sessions that work on it and the highlighters made so far.  A
session has the page's editors built once: at its first setup, or when the first highlighter is
made through it.  `Workspace.run` takes a workspace through a list of steps and collects the
reply to each.
-/

namespace Tint

/-- What a session's setup did. -/
inductive Setup where
  /-- the editors have been built -/
  | initialized
  /-- they had been built before -/
  | alreadyInitialized
  deriving DecidableEq, Repr, Inhabited

/-- The elements that a new highlighter is for. -/
inductive Target where
  /-- the contents of all editors -/
  | content
  /-- the contents of the editors inside a scope -/
  | scope (scope : Text)
  /-- the elements under a selector -/
  | selector (selector : Text)
  deriving DecidableEq, Repr, Inhabited

/-- A new highlighter for a target. -/
def Target.highlighter : Target → Highlighter
  | .content => .forContent
  | .scope s => .forScope s
  | .selector s => .forSelector s

/-- What can be done with a highlighter. -/
inductive Use where
  /-- load a rule file -/
  | load (fetched : Except Fault Text)
  /-- load a rule file and, if that succeeds, paint the page -/
  | config (fetched : Except Fault Text)
  /-- paint the page -/
  | apply
  /-- paint a text by itself -/
  | render (text : Text)
  /-- look up the colors of a name -/
  | lookup (name : Text)

/-- What can be done in a workspace. -/
inductive Action where
  /-- nothing but naming the session -/
  | mention
  /-- set the session up -/
  | setup
  /-- make a highlighter, through the session or directly -/
  | create (target : Target) (throughSession : Bool)
  /-- copy a highlighter -/
  | clone (highlighter : Nat)
  /-- change the text of an element -/
  | setText (element : Nat) (text : Text)
  /-- use a highlighter -/
  | use (highlighter : Nat) (use : Use)

/-- An action in a session. -/
structure Step where
  session : Nat := 0
  action : Action

/-- What a step answers. -/
inductive Reply where
  /-- the step is done -/
  | done
  | setup (outcome : Setup)
  /-- a highlighter has been added under an index -/
  | created (index : Nat) (highlighter : Highlighter)
  /-- there is no highlighter of this index -/
  | noHighlighter
  | loaded (rules : RuleSet)
  | loadFailed (error : LoadError)
  /-- a number of elements has been painted -/
  | applied (count : Nat)
  | rendered (html : Option Text)
  /-- the rules of the highlighter, in which the name can be looked up -/
  | found (name : Text) (rules : Option RuleSet)

/-- A page with its sessions and highlighters. -/
structure Workspace where
  page : Page
  /-- the sessions that have been set up, the latest first -/
  sessions : List Nat := []
  highlighters : List Highlighter := []
  deriving DecidableEq, Repr, Inhabited

namespace Workspace

/-- The session has been set up. -/
def isInitialized (w : Workspace) (session : Nat) : Bool := w.sessions.contains session

/-- Sets a session up, unless it has been. -/
def ensureInitialized (w : Workspace) (session : Nat) : Workspace :=
  if w.isInitialized session then w
  else { w with page := w.page.buildEditors, sessions := session :: w.sessions }

/-- Adds a highlighter at the end. -/
def add (w : Workspace) (h : Highlighter) : Workspace × Reply :=
  ({ w with highlighters := w.highlighters ++ [h] }, .created w.highlighters.length h)

/-- Replaces the highlighter of an index by what it has become. -/
def update (w : Workspace) (index : Nat) (h : Highlighter) : Workspace :=
  { w with highlighters := w.highlighters.set index h }

/-- The page after a highlighter has painted it. -/
def applyHighlighter (w : Workspace) (h : Highlighter) : Workspace :=
  { w with page := h.apply w.page }

/-- Uses the highlighter `h` of an index. -/
def useHighlighter (w : Workspace) (index : Nat) (h : Highlighter) : Use → Workspace × Reply
  | .load fetched =>
    let loaded := RuleFile.load fetched
    match loaded with
    | .ok contents => (w.update index (h.withLoaded loaded), .loaded contents.rules)
    | .error e => (w.update index (h.withLoaded loaded), .loadFailed e)
  | .config fetched =>
    let loaded := RuleFile.load fetched
    let configured := h.withLoaded loaded
    match loaded with
    | .ok _ =>
      ((w.update index configured).applyHighlighter configured,
        .applied (configured.appliedTo w.page))
    | .error e => (w.update index configured, .loadFailed e)
  | .apply => (w.applyHighlighter h, .applied (h.appliedTo w.page))
  | .render text => (w, .rendered (h.render? text))
  | .lookup name => (w, .found name h.rules)

/-- Does one step. -/
def step (w : Workspace) (s : Step) : Workspace × Reply :=
  match s.action with
  | .mention => (w, .done)
  | .setup =>
    (w.ensureInitialized s.session,
      .setup (if w.isInitialized s.session then .alreadyInitialized else .initialized))
  | .create target throughSession =>
    (if throughSession then w.ensureInitialized s.session else w).add target.highlighter
  | .clone index =>
    match w.highlighters[index]? with
    | some h => w.add h
    | none => (w, .noHighlighter)
  | .setText index text => ({ w with page := w.page.setText index text }, .done)
  | .use index u =>
    match w.highlighters[index]? with
    | some h => w.useHighlighter index h u
    | none => (w, .noHighlighter)

/-- The workspace after a list of steps. -/
def run (w : Workspace) (steps : List Step) : Workspace :=
  steps.foldl (fun w s => (w.step s).1) w

/-- The reply to each of a list of steps, with the workspace after it. -/
def replies (w : Workspace) : List Step → List (Reply × Workspace)
  | [] => []
  | s :: r => ((w.step s).2, (w.step s).1) :: replies (w.step s).1 r

@[simp] theorem run_nil (w : Workspace) : w.run [] = w := rfl

@[simp] theorem run_cons (w : Workspace) (s : Step) (r : List Step) :
    w.run (s :: r) = (w.step s).1.run r := rfl

theorem run_append (w : Workspace) (a b : List Step) : w.run (a ++ b) = (w.run a).run b := by
  simp [run]

end Workspace

end Tint
