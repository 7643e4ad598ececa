import Mathlib.Data.List.Forall2
import Mathlib.Data.List.Induction
import Tint.Proofs.Editor.Steps
set_option autoImplicit false

/-!
# Highlighters and pages over whole runs

What a highlighter is like after a run is settled by its history, the rule files that have been
loaded into it; a copy starts with the history of what it is a copy of (`Workspace.histories`).  What
an element shows is settled by the last step that painted the elements under its selector
(`Workspace.LastPaintsAt`): the text it had then, with the rules that the painting highlighter had
then.  Both are said of the list of steps alone, and `Workspace.chronicle` ties a workspace to them.
-/

namespace Tint

/-! ## Highlighters -/

namespace Highlighter

theorem rules_load_eq_some_iff {h : Highlighter} {fetched : Except Fault Text}
    {rules : RuleSet} : (h.load fetched).rules = some rules ↔
      ∃ text contents, fetched = .ok text ∧ RuleFile.read text = .ok contents ∧
        contents.rules = rules := by
  unfold load withLoaded RuleFile.load
  cases fetched with
  | error fault => simp [Except.toOption]
  | ok text => cases hread : RuleFile.read text <;> simp [hread, Except.toOption, Except.mapError]

@[simp] theorem selector_afterUse (h : Highlighter) (u : Use) :
    (h.afterUse u).selector = h.selector := by
  unfold afterUse
  split <;> rfl

/-- An element is painted exactly by a highlighter that has its selector and rules. -/
theorem paintElement_spec (h : Highlighter) (e : Element) :
    (h.paintElement e).selector = e.selector ∧ (h.paintElement e).text = e.text ∧
      (((h.paintElement e).html = e.html ∧
          ∀ rules, h.selector = e.selector → h.rules ≠ some rules) ∨
        ∃ rules, (h.selector = e.selector ∧ h.rules = some rules) ∧
          (h.paintElement e).html = some (rules.render e.text)) := by
  unfold paintElement
  cases hrules : h.rules with
  | none => exact ⟨rfl, rfl, .inl ⟨rfl, fun _ _ => nofun⟩⟩
  | some rules =>
    dsimp only
    split
    · rename_i hselector
      exact ⟨rfl, rfl, .inr ⟨rules, ⟨(beq_iff_eq.1 hselector).symm, rfl⟩, rfl⟩⟩
    · rename_i hselector
      refine ⟨rfl, rfl, .inl ⟨rfl, fun _ h' => ?_⟩⟩
      exact absurd (beq_iff_eq.2 h'.symm) hselector

end Highlighter

/-! ## Histories -/

/-- The past of a highlighter: the selector it was made for, and the rule files that have been
loaded into it, or into what it is a copy of before it was copied, in order. -/
structure History where
  selector : Text
  loads : List (Except Fault Text) := []

namespace History

/-- The history after the highlighter has been used. -/
def afterUse (past : History) (u : Use) : History :=
  { past with loads := past.loads ++ u.fetched?.toList }

/-- There has been a load, and the last one gave the rules. -/
def HasRules (past : History) (rules : RuleSet) : Prop :=
  ∃ text contents, past.loads.getLast? = some (.ok text) ∧ RuleFile.read text = .ok contents ∧
    contents.rules = rules

/-- The highlighter that comes out of a history. -/
def highlighter (past : History) : Highlighter where
  selector := past.selector
  rules := past.loads.getLast?.bind fun fetched =>
    ((Highlighter.forSelector past.selector).load fetched).rules

theorem highlighter_afterUse (past : History) (u : Use) :
    (past.afterUse u).highlighter = past.highlighter.afterUse u := by
  unfold highlighter afterUse Highlighter.afterUse
  cases u.fetched? with
  | some fetched => simp [Highlighter.load, Highlighter.withLoaded]
  | none => simp

theorem rules_highlighter_eq_some_iff {past : History} {rules : RuleSet} :
    past.highlighter.rules = some rules ↔ past.HasRules rules := by
  simp only [highlighter, HasRules, Option.bind_eq_some_iff, Highlighter.rules_load_eq_some_iff]
  constructor
  · rintro ⟨_, hlast, text, contents, rfl, hread⟩
    exact ⟨text, contents, hlast, hread⟩
  · rintro ⟨text, contents, hlast, hread⟩
    exact ⟨_, hlast, text, contents, rfl, hread⟩

/-- The highlighter is as the history says. -/
structure Fits (past : History) (h : Highlighter) : Prop where
  selector_eq : h.selector = past.selector
  isConfigured_iff : h.isConfigured = true ↔ ∃ rules, past.HasRules rules
  rules_iff : ∀ rules, h.rules = some rules ↔ past.HasRules rules

theorem fits_highlighter (past : History) : past.Fits past.highlighter where
  selector_eq := rfl
  isConfigured_iff := by
    rw [Highlighter.isConfigured, Option.isSome_iff_exists]
    simp only [rules_highlighter_eq_some_iff]
  rules_iff _ := rules_highlighter_eq_some_iff

end History

/-- The text that the step gives to the element of a number. -/
def Step.text? (index : Nat) (s : Step) : Option Text :=
  match s.action with
  | .setText changed text => if changed = index then some text else none
  | _ => none

/-- Changing one place of a list, seen through a function that turns the one change into another. -/
theorem map_modify {α β : Type} {f : α → α} {f' : β → β} {g : α → β} (h : ∀ a, g (f a) = f' (g a))
    (l : List α) (index : Nat) : (l.modify index f).map g = (l.map g).modify index f' := by
  refine List.ext_getElem? fun i => ?_
  rw [List.getElem?_map, List.getElem?_modify, List.getElem?_modify, List.getElem?_map]
  cases l[i]? with
  | some a => split <;> simp [h]
  | none => rfl

namespace Workspace

/-- The histories of the highlighters after one more step. -/
def advance (pasts : List History) (s : Step) : List History :=
  match s.action with
  | .create target _ => pasts ++ [{ selector := target.highlighter.selector }]
  | .clone index => pasts ++ pasts[index]?.toList
  | .use index u => pasts.modify index (·.afterUse u)
  | .mention | .setup | .setText .. => pasts

/-- The histories of the highlighters that the steps make, in order. -/
def histories (steps : List Step) : List History := steps.foldl advance []

theorem histories_append_singleton (steps : List Step) (s : Step) :
    histories (steps ++ [s]) = advance (histories steps) s := by
  simp [histories]

theorem map_highlighter_advance (pasts : List History) (s : Step) {w : Workspace}
    (hw : w.highlighters = pasts.map History.highlighter) :
    (w.step s).1.highlighters = (advance pasts s).map History.highlighter := by
  rw [highlighters_step, hw]
  obtain ⟨session, action⟩ := s
  cases action with
  | create target throughSession => cases target <;> simp [advance] <;> rfl
  | clone index => cases h : pasts[index]? <;> simp [advance, h]
  | use index u =>
    exact (map_modify (fun past : History => past.highlighter_afterUse u) pasts index).symm
  | _ => rfl

theorem highlighters_run (elements : List (Text × Text)) (steps : List Step) :
    ((onPage elements).run steps).highlighters = (histories steps).map History.highlighter := by
  induction steps using List.reverseRecOn with
  | nil => rfl
  | append_singleton steps s ih =>
    rw [run_append, histories_append_singleton]
    exact map_highlighter_advance _ s ih

/-! ## Paintings -/

/-- After the steps `before`, the step paints the elements under a selector with some rules. -/
inductive Paints (before : List Step) : Step → Text → RuleSet → Prop where
  /-- a highlighter with rules is applied -/
  | apply {session index : Nat} {past : History} {rules : RuleSet}
      (made : (histories before)[index]? = some past) (configured : past.HasRules rules) :
      Paints before ⟨session, .use index .apply⟩ past.selector rules
  /-- a highlighter loads rules and is applied -/
  | config {session index : Nat} {past : History} {text : Text} {contents : RuleFile.Contents}
      (made : (histories before)[index]? = some past) (read : RuleFile.read text = .ok contents) :
      Paints before ⟨session, .use index (.config (.ok text))⟩ past.selector contents.rules

/-- The step of a number paints the elements under a selector with some rules. -/
def PaintsAt (steps : List Step) (number : Nat) (selector : Text) (rules : RuleSet) : Prop :=
  ∃ s, steps[number]? = some s ∧ Paints (steps.take number) s selector rules

/-- The step of a number is the last one that paints the elements under a selector. -/
def LastPaintsAt (steps : List Step) (number : Nat) (selector : Text) (rules : RuleSet) : Prop :=
  PaintsAt steps number selector rules ∧
    ∀ later, number < later → ∀ rules, ¬ PaintsAt steps later selector rules

/-- A step paints when it is a use that does, of a highlighter that has rules afterwards. -/
theorem paints_use_iff {before : List Step} {w : Workspace} {session index : Nat} {u : Use}
    {selector : Text} {rules : RuleSet}
    (hw : w.highlighters = (histories before).map History.highlighter) :
    Paints before ⟨session, .use index u⟩ selector rules ↔ u.paints = true ∧
      ∃ h, w.highlighters[index]? = some h ∧ h.selector = selector ∧
        (h.afterUse u).rules = some rules := by
  rw [hw, List.getElem?_map]
  constructor
  · rintro (⟨hpast, hrules⟩ | ⟨hpast, hread⟩)
    · rw [hpast]
      exact ⟨rfl, _, rfl, rfl, History.rules_highlighter_eq_some_iff.2 hrules⟩
    · rw [hpast]
      exact ⟨rfl, _, rfl, rfl, Highlighter.rules_load_eq_some_iff.2 ⟨_, _, rfl, hread, rfl⟩⟩
  · rintro ⟨hpaints, h, hh, rfl, hrules⟩
    obtain ⟨past, hpast, rfl⟩ := Option.map_eq_some_iff.1 hh
    cases u with
    | load fetched => cases hpaints
    | render text => cases hpaints
    | lookup name => cases hpaints
    | apply => exact .apply hpast (History.rules_highlighter_eq_some_iff.1 hrules)
    | config fetched =>
      obtain ⟨text, contents, rfl, hread, rfl⟩ := Highlighter.rules_load_eq_some_iff.1 hrules
      exact .config hpast hread

theorem paintsAt_append_singleton_of_lt {steps : List Step} (s : Step) {number : Nat}
    {selector : Text} {rules : RuleSet} (h : number < steps.length) :
    PaintsAt (steps ++ [s]) number selector rules ↔ PaintsAt steps number selector rules := by
  rw [PaintsAt, PaintsAt, List.getElem?_append_left h, List.take_append_of_le_length (Nat.le_of_lt h)]

theorem paintsAt_append_singleton_length {steps : List Step} {s : Step} {selector : Text}
    {rules : RuleSet} :
    PaintsAt (steps ++ [s]) steps.length selector rules ↔ Paints steps s selector rules := by
  simp [PaintsAt]

theorem PaintsAt.lt {steps : List Step} {number : Nat} {selector : Text} {rules : RuleSet}
    (h : PaintsAt steps number selector rules) : number < steps.length := by
  obtain ⟨s, hs, -⟩ := h
  exact (List.getElem?_eq_some_iff.1 hs).1

/-! ## Elements -/

/-- The text of the element of a number after some steps, the one it had at first being `first`. -/
def textAfter (first : Text) (index : Nat) (steps : List Step) : Text :=
  (steps.filterMap (Step.text? index)).getLast?.getD first

theorem textAfter_append_singleton (first : Text) (index : Nat) (steps : List Step) (s : Step) :
    textAfter first index (steps ++ [s]) =
      (s.text? index).getD (textAfter first index steps) := by
  unfold textAfter
  rw [List.filterMap_append]
  cases h : s.text? index <;> simp [h]

/-- A step leaves an element its selector, and what it shows unless it paints the element. -/
theorem element_step {before : List Step} {w : Workspace} {index : Nat} {e : Element} (s : Step)
    (hw : w.highlighters = (histories before).map History.highlighter)
    (he : w.page.elements[index]? = some e) :
    ∃ e', (w.step s).1.page.elements[index]? = some e' ∧ e'.selector = e.selector ∧
      e'.text = (s.text? index).getD e.text ∧
      ((e'.html = e.html ∧ ∀ rules, ¬ Paints before s e.selector rules) ∨
        ∃ rules, Paints before s e.selector rules ∧ e'.html = some (rules.render e.text)) := by
  rw [elements_step]
  obtain ⟨session, action⟩ := s
  cases action with
  | setText changed text =>
    rw [List.getElem?_modify, he]
    refine ⟨_, rfl, ?_⟩
    unfold Step.text?
    dsimp only
    split <;> exact ⟨rfl, rfl, .inl ⟨rfl, fun _ => nofun⟩⟩
  | use used u =>
    simp only [paints_use_iff hw]
    cases w.highlighters[used]? with
    | none => exact ⟨e, he, rfl, rfl, .inl ⟨rfl, by simp⟩⟩
    | some h =>
      cases u.paints with
      | false => exact ⟨e, he, rfl, rfl, .inl ⟨rfl, by simp⟩⟩
      | true =>
        obtain ⟨hselector, htext, hhtml⟩ := (h.afterUse u).paintElement_spec e
        refine ⟨(h.afterUse u).paintElement e, by simp [he], hselector, htext, ?_⟩
        simpa using hhtml
  | _ => exact ⟨e, he, rfl, rfl, .inl ⟨rfl, fun _ => nofun⟩⟩

/-- An element after some steps, which had a selector and a text at first. -/
structure Shows (steps : List Step) (index : Nat) (first : Text × Text) (e : Element) : Prop where
  selector_eq : e.selector = first.1
  text_eq : e.text = textAfter first.2 index steps
  html_eq_none_iff : e.html = none ↔ ∀ number rules, ¬ PaintsAt steps number first.1 rules
  html_eq : e.html ≠ none → ∃ number rules, LastPaintsAt steps number first.1 rules ∧
    e.html = some (rules.render (textAfter first.2 index (steps.take number)))

theorem Shows.append_of_not_paints {steps : List Step} {s : Step} {index : Nat}
    {first : Text × Text} {e e' : Element} (h : Shows steps index first e)
    (hselector : e'.selector = e.selector) (htext : e'.text = (s.text? index).getD e.text)
    (hhtml : e'.html = e.html) (hidle : ∀ rules, ¬ Paints steps s first.1 rules) :
    Shows (steps ++ [s]) index first e' := by
  have hsame {number : Nat} {rules : RuleSet} :
      PaintsAt (steps ++ [s]) number first.1 rules ↔ PaintsAt steps number first.1 rules := by
    rcases Nat.lt_or_ge number steps.length with hlt | hge
    · exact paintsAt_append_singleton_of_lt s hlt
    · refine ⟨fun hp => ?_, fun hp => absurd hp.lt (Nat.not_lt.2 hge)⟩
      have hlt := hp.lt
      rw [List.length_append, List.length_singleton] at hlt
      obtain rfl : number = steps.length := by omega
      exact absurd (paintsAt_append_singleton_length.1 hp) (hidle rules)
  refine ⟨hselector.trans h.selector_eq, ?_, ?_, fun hne => ?_⟩
  · rw [htext, h.text_eq, textAfter_append_singleton]
  · rw [hhtml, h.html_eq_none_iff]
    simp only [hsame]
  · rw [hhtml] at hne ⊢
    obtain ⟨number, rules, ⟨hpaints, hlast⟩, hshown⟩ := h.html_eq hne
    refine ⟨number, rules, ⟨hsame.2 hpaints, fun later hlater rules' => ?_⟩, ?_⟩
    · rw [hsame]
      exact hlast later hlater rules'
    · rw [hshown, List.take_append_of_le_length (Nat.le_of_lt hpaints.lt)]

theorem Shows.append_of_paints {steps : List Step} {s : Step} {index : Nat}
    {first : Text × Text} {e e' : Element} (h : Shows steps index first e)
    (hselector : e'.selector = e.selector) (htext : e'.text = (s.text? index).getD e.text)
    {rules : RuleSet} (hpaints : Paints steps s first.1 rules)
    (hhtml : e'.html = some (rules.render e.text)) : Shows (steps ++ [s]) index first e' := by
  have hpaintsAt : PaintsAt (steps ++ [s]) steps.length first.1 rules :=
    paintsAt_append_singleton_length.2 hpaints
  refine ⟨hselector.trans h.selector_eq, ?_, ?_, fun _ => ?_⟩
  · rw [htext, h.text_eq, textAfter_append_singleton]
  · refine ⟨fun hnone => ?_, fun hno => absurd hpaintsAt (hno _ _)⟩
    rw [hhtml] at hnone
    cases hnone
  · refine ⟨steps.length, rules, ⟨hpaintsAt, fun later hlater rules' hp => ?_⟩, ?_⟩
    · have hlt := hp.lt
      rw [List.length_append, List.length_singleton] at hlt
      omega
    · rw [hhtml, h.text_eq, List.take_left]

/-- Whatever has been done, each element is still there, and shows its last painting. -/
theorem shows_run {elements : List (Text × Text)} {index : Nat} {first : Text × Text}
    (hfirst : elements[index]? = some first) (steps : List Step) :
    ∃ e, ((onPage elements).run steps).page.elements[index]? = some e ∧
      Shows steps index first e := by
  induction steps using List.reverseRecOn with
  | nil =>
    refine ⟨{ selector := first.1, text := first.2 }, ?_, rfl, rfl, ?_, fun h => absurd rfl h⟩
    · simp [onPage, hfirst]
    · exact ⟨fun _ number rules h => absurd h.lt (Nat.not_lt_zero number), fun _ => rfl⟩
  | append_singleton steps s ih =>
    obtain ⟨e, he, hshows⟩ := ih
    obtain ⟨e', he', hselector, htext, hhtml⟩ :=
      element_step s (highlighters_run elements steps) he
    rw [run_append]
    refine ⟨e', he', ?_⟩
    rw [hshows.selector_eq] at hhtml
    rcases hhtml with ⟨hsame, hidle⟩ | ⟨rules, hpaints, hpainted⟩
    · exact hshows.append_of_not_paints hselector htext hsame hidle
    · exact hshows.append_of_paints hselector htext hpaints hpainted

theorem selectors_step (w : Workspace) (s : Step) :
    (w.step s).1.page.elements.map Element.selector = w.page.elements.map Element.selector := by
  rw [elements_step]
  obtain ⟨session, action⟩ := s
  cases action with
  | setText index text =>
    have hkeep (e : Element) : Element.selector { e with text := text } = id e.selector := rfl
    exact (map_modify hkeep _ index).trans (List.modify_id index _)
  | use index u =>
    dsimp only
    split
    · rename_i h _
      split
      · rw [List.map_map]
        exact List.map_congr_left fun e _ => ((h.afterUse u).paintElement_spec e).1
      · rfl
    · rfl
  | _ => rfl

/-- The elements of a page keep their selectors. -/
theorem selectors_run (elements : List (Text × Text)) (steps : List Step) :
    ((onPage elements).run steps).page.elements.map Element.selector = elements.map Prod.fst := by
  induction steps using List.reverseRecOn with
  | nil => exact List.map_map
  | append_singleton steps s ih =>
    rw [run_append]
    exact (selectors_step _ s).trans ih

/-- There are always as many elements under a selector. -/
theorem length_subjects_run (elements : List (Text × Text)) (steps : List Step) (selector : Text) :
    (((onPage elements).run steps).page.subjects selector).length =
      elements.countP fun e => e.1 == selector := by
  have hcount (l : List Element) : (l.filter (·.selector == selector)).length =
      (l.map Element.selector).countP (· == selector) := by
    rw [← List.countP_eq_length_filter, List.countP_map]
    rfl
  rw [Page.subjects, hcount, selectors_run, List.countP_map]
  rfl

/-! ## Chronicles -/

/-- What a workspace is like after some steps on a page, and what the next step may change. -/
structure Chronicle (elements : List (Text × Text)) (steps : List Step) (w : Workspace) : Prop where
  /-- each highlighter has the selector it was made for, and the rules that its last load gave -/
  highlighters : List.Forall₂ History.Fits (histories steps) w.highlighters
  length_elements : w.page.elements.length = elements.length
  /-- each element shows nothing, or its last painting -/
  shows : ∀ (index : Nat) (first : Text × Text), elements[index]? = some first →
    ∃ e, w.page.elements[index]? = some e ∧ Shows steps index first e
  /-- a failed load, also one that was to be followed by painting, changes no element -/
  failed_load : ∀ (session index : Nat) (u : Use) (fetched : Except Fault Text) (error : LoadError),
    u.fetched? = some fetched → RuleFile.load fetched = .error error →
    (w.step ⟨session, .use index u⟩).1.page.elements = w.page.elements
  /-- a highlighter without rules changes no element when it is applied -/
  apply_unconfigured : ∀ (session index : Nat) (h : Highlighter), w.highlighters[index]? = some h →
    h.isConfigured = false →
    (w.step ⟨session, .use index .apply⟩).1.page.elements = w.page.elements
  /-- nothing but its own use changes a highlighter -/
  others : ∀ (s : Step) (index : Nat) (h : Highlighter), w.highlighters[index]? = some h →
    (∀ u, s.action ≠ .use index u) → (w.step s).1.highlighters[index]? = some h
  /-- the number of elements under the selector is answered where they have been painted -/
  applied : ∀ (session index : Nat) (h : Highlighter), w.highlighters[index]? = some h →
    (w.step ⟨session, .use index .apply⟩).2 = .applied
      (if h.isConfigured then elements.countP fun e => e.1 == h.selector else 0)

theorem getElem?_highlighters_step {w : Workspace} {s : Step} {index : Nat} {h : Highlighter}
    (hh : w.highlighters[index]? = some h) (hs : ∀ u, s.action ≠ .use index u) :
    (w.step s).1.highlighters[index]? = some h := by
  obtain ⟨hlt, -⟩ := List.getElem?_eq_some_iff.1 hh
  rw [highlighters_step]
  obtain ⟨session, action⟩ := s
  cases action with
  | create target throughSession => exact (List.getElem?_append_left hlt).trans hh
  | clone used => exact (List.getElem?_append_left hlt).trans hh
  | use used u =>
    have hne : used ≠ index := fun heq => hs u (by rw [heq])
    exact (List.getElem?_modify_ne _ _ hne).trans hh
  | _ => exact hh

/-- A use after which the highlighter has no rules changes no element. -/
theorem elements_step_of_not_isConfigured {w : Workspace} {session index : Nat} {u : Use}
    (h : ∀ h, w.highlighters[index]? = some h → (h.afterUse u).isConfigured = false) :
    (w.step ⟨session, .use index u⟩).1.page.elements = w.page.elements := by
  rw [elements_step]
  dsimp only
  split
  · rename_i h' hh
    split
    · rw [← Highlighter.elements_apply, Highlighter.apply_of_not_isConfigured (h h' hh)]
    · rfl
  · rfl

/-- Every run leaves a workspace that its steps account for. -/
theorem chronicle (elements : List (Text × Text)) (steps : List Step) :
    Chronicle elements steps ((onPage elements).run steps) := by
  refine ⟨?_, ?_, fun index first => (shows_run · steps), ?_, ?_, ?_, ?_⟩
  · rw [highlighters_run, List.forall₂_map_right_iff, List.forall₂_same]
    exact fun past _ => past.fits_highlighter
  · have hlength := congrArg List.length (selectors_run elements steps)
    rwa [List.length_map, List.length_map] at hlength
  · intro session index u fetched error hu hload
    refine elements_step_of_not_isConfigured fun h _ => ?_
    rw [Highlighter.afterUse, hu]
    exact Highlighter.isConfigured_load_of_error hload
  · intro session index h hh hconfigured
    refine elements_step_of_not_isConfigured fun h' hh' => ?_
    cases hh.symm.trans hh'
    exact hconfigured
  · intro s index h hh hs
    exact getElem?_highlighters_step hh hs
  · intro session index h hh
    rw [← length_subjects_run elements steps]
    simp only [step, hh]
    rfl

/-- A highlighter that has loaded nothing answers that it has painted nothing, whatever there is
under its selector. -/
theorem not_applied_to_all_subjects :
    let w := (onPage [(Highlighter.contentSelector, "int".toList)]).run
      [⟨0, .create .content false⟩]
    ¬ ∀ (index : Nat) (h : Highlighter), w.highlighters[index]? = some h →
      (w.step ⟨0, .use index .apply⟩).2 = .applied (w.page.subjects h.selector).length := by
  intro w hall
  have happlied : Reply.applied 0 = .applied 1 := hall 0 .forContent rfl
  cases happlied

end Workspace

end Tint
