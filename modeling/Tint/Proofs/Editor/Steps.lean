import Mathlib.Data.List.Basic
import Tint.Editor.Workspace
set_option autoImplicit false

/-!
# What a step changes

A step changes three parts of a workspace apart from each other: its sessions together with the
count of builds (`Workspace.sessions_step`), its highlighters (`Workspace.highlighters_step`) and the
elements of its page (`Workspace.elements_step`).  What whole runs do to a part is shown from its
equation, without looking into the steps again.
-/

namespace Tint

/-! ## Steps by their effects -/

/-- The rule file that is loaded into the highlighter. -/
def Use.fetched? : Use → Option (Except Fault Text)
  | .load fetched | .config fetched => some fetched
  | .apply | .render _ | .lookup _ => none

/-- The page is painted, if the highlighter has rules then. -/
def Use.paints : Use → Bool
  | .config _ | .apply => true
  | .load _ | .render _ | .lookup _ => false

/-- The step sets its session up, if that has not been done before. -/
def Step.opens (s : Step) : Bool :=
  match s.action with
  | .setup | .create _ true => true
  | _ => false

namespace Highlighter

/-- The highlighter after it has been used. -/
def afterUse (h : Highlighter) (u : Use) : Highlighter :=
  match u.fetched? with
  | some fetched => h.load fetched
  | none => h

/-- An element after the highlighter has painted the page. -/
def paintElement (h : Highlighter) (e : Element) : Element :=
  match h.rules with
  | some rules =>
    if e.selector == h.selector then { e with painting := some (rules.paint e.text) } else e
  | none => e

theorem elements_apply (h : Highlighter) (page : Page) :
    (h.apply page).elements = page.elements.map h.paintElement := by
  unfold apply paintElement
  cases h.rules with
  | some rules => rfl
  | none => exact (List.map_id _).symm

theorem isConfigured_load_of_error {h : Highlighter} {fetched : Except Fault Text}
    {error : LoadError} (hload : RuleFile.load fetched = .error error) :
    (h.load fetched).isConfigured = false := by
  rw [load, withLoaded, hload]
  rfl

end Highlighter

namespace Workspace

/-- A page that nobody has worked on yet, with a selector and a text for each element. -/
def onPage (elements : List (Text × Text)) : Workspace where
  page := { elements := elements.map fun e => { selector := e.1, text := e.2 } }

variable (w : Workspace) (s : Step)

/-! ## Uses -/

theorem modify_afterUse_of_fetched?_eq_none {index : Nat} {u : Use} (hu : u.fetched? = none) :
    w.highlighters.modify index (·.afterUse u) = w.highlighters := by
  have hid : (fun h : Highlighter => h.afterUse u) = id := by
    funext h
    rw [Highlighter.afterUse, hu]
    rfl
  rw [hid, List.modify_id]

/-- All that a use changes: its highlighter, and the page if it paints. -/
theorem useHighlighter_eq {index : Nat} {h : Highlighter} (u : Use)
    (hh : w.highlighters[index]? = some h) :
    (w.useHighlighter index h u).1 =
      { w with
        page := if u.paints then (h.afterUse u).apply w.page else w.page
        highlighters := w.highlighters.modify index (·.afterUse u) } := by
  have hmodify : w.highlighters.modify index (·.afterUse u) =
      w.highlighters.set index (h.afterUse u) := by
    rw [List.modify_eq_set_getElem?, hh]
    rfl
  cases u with
  | load fetched =>
    rw [hmodify, useHighlighter]
    split <;> rfl
  | config fetched =>
    rw [hmodify, useHighlighter]
    split
    · rfl
    · rename_i error hload
      have happly : (h.load fetched).apply w.page = w.page :=
        Highlighter.apply_of_not_isConfigured (Highlighter.isConfigured_load_of_error hload) w.page
      have hpaints : (Use.config fetched).paints = true := rfl
      rw [if_pos hpaints, Highlighter.afterUse]
      exact congrArg (fun page => { w.update index (h.load fetched) with page := page }) happly.symm
  | apply =>
    rw [w.modify_afterUse_of_fetched?_eq_none rfl]
    rfl
  | render text =>
    rw [w.modify_afterUse_of_fetched?_eq_none rfl]
    rfl
  | lookup name =>
    rw [w.modify_afterUse_of_fetched?_eq_none rfl]
    rfl

/-! ## Steps -/

@[simp] theorem highlighters_ensureInitialized (session : Nat) :
    (w.ensureInitialized session).highlighters = w.highlighters := by
  unfold ensureInitialized
  split <;> rfl

@[simp] theorem elements_ensureInitialized (session : Nat) :
    (w.ensureInitialized session).page.elements = w.page.elements := by
  unfold ensureInitialized
  split <;> rfl

/-- The sessions and the builds are those that the setup of the session leaves, in a step that calls
for it. -/
theorem sessions_step :
    let opened := if s.opens then w.ensureInitialized s.session else w
    (w.step s).1.sessions = opened.sessions ∧ (w.step s).1.page.builds = opened.page.builds := by
  obtain ⟨session, action⟩ := s
  cases action with
  | mention => exact ⟨rfl, rfl⟩
  | setup => exact ⟨rfl, rfl⟩
  | create target throughSession => cases throughSession <;> exact ⟨rfl, rfl⟩
  | clone index =>
    simp only [step]
    split <;> exact ⟨rfl, rfl⟩
  | setText index text => exact ⟨rfl, rfl⟩
  | use index u =>
    simp only [step]
    split
    · rename_i h hh
      rw [w.useHighlighter_eq u hh]
      refine ⟨rfl, ?_⟩
      dsimp only
      split
      · exact Highlighter.builds_apply _ _
      · rfl
    · exact ⟨rfl, rfl⟩

theorem highlighters_step : (w.step s).1.highlighters =
    match s.action with
    | .create target _ => w.highlighters ++ [target.highlighter]
    | .clone index => w.highlighters ++ w.highlighters[index]?.toList
    | .use index u => w.highlighters.modify index (·.afterUse u)
    | .mention | .setup | .setText .. => w.highlighters := by
  obtain ⟨session, action⟩ := s
  cases action with
  | mention => rfl
  | setup => exact w.highlighters_ensureInitialized session
  | create target throughSession => cases throughSession <;> simp [step, add]
  | clone index =>
    simp only [step]
    cases w.highlighters[index]? with
    | some h => rfl
    | none => exact (List.append_nil _).symm
  | setText index text => rfl
  | use index u =>
    simp only [step]
    cases hh : w.highlighters[index]? with
    | some h => exact congrArg highlighters (w.useHighlighter_eq u hh)
    | none => exact (List.modify_eq_self (List.getElem?_eq_none_iff.1 hh)).symm

theorem elements_step : (w.step s).1.page.elements =
    match s.action with
    | .setText index text => w.page.elements.modify index fun e => { e with text := text }
    | .use index u =>
      match w.highlighters[index]? with
      | some h =>
        if u.paints then w.page.elements.map (h.afterUse u).paintElement else w.page.elements
      | none => w.page.elements
    | .mention | .setup | .create .. | .clone _ => w.page.elements := by
  obtain ⟨session, action⟩ := s
  cases action with
  | mention => rfl
  | setup => exact w.elements_ensureInitialized session
  | create target throughSession => cases throughSession <;> simp [step, add]
  | clone used =>
    simp only [step]
    split <;> rfl
  | setText changed text => rfl
  | use used u =>
    simp only [step]
    cases hh : w.highlighters[used]? with
    | some h =>
      simp only [w.useHighlighter_eq u hh]
      split
      · exact Highlighter.elements_apply _ _
      · rfl
    | none => rfl

end Workspace

end Tint
