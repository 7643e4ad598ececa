import Tint.Editor.Highlighter
set_option autoImplicit false

/-!
# Pages

A page is a fixed list of elements, each under one selector, with a text and, once it has been
painted, the painting of the text it had then.  `Highlighter.apply` paints every element under the
highlighter's selector.
-/

namespace Tint

/-- An element of a page. -/
structure Element where
  selector : Text
  text : Text
  /-- what the element shows, once it has been painted -/
  painting : Option Painting := none
  deriving DecidableEq, Repr, Inhabited

/-- The HTML that the element shows, once it has been painted. -/
def Element.html (e : Element) : Option Text := e.painting.map Painting.html

/-- The elements of a page, in order, and how often its editors have been built. -/
structure Page where
  elements : List Element
  builds : Nat := 0
  deriving DecidableEq, Repr, Inhabited

namespace Page

/-- The elements under a selector. -/
def subjects (page : Page) (selector : Text) : List Element :=
  page.elements.filter (·.selector == selector)

/-- Shows in each element under the selector what `paint` makes of its text. -/
def replaceUnder (page : Page) (selector : Text) (paint : Text → Painting) : Page :=
  { page with
    elements := page.elements.map fun e =>
      if e.selector == selector then { e with painting := some (paint e.text) } else e }

/-- Changes the text of one element; what it shows stays. -/
def setText (page : Page) (index : Nat) (text : Text) : Page :=
  { page with elements := page.elements.modify index fun e => { e with text := text } }

/-- Builds the editors of the page. -/
def buildEditors (page : Page) : Page := { page with builds := page.builds + 1 }

@[simp] theorem builds_replaceUnder (page : Page) (selector : Text) (paint : Text → Painting) :
    (page.replaceUnder selector paint).builds = page.builds := rfl

@[simp] theorem builds_setText (page : Page) (index : Nat) (text : Text) :
    (page.setText index text).builds = page.builds := rfl

@[simp] theorem length_elements_replaceUnder (page : Page) (selector : Text)
    (paint : Text → Painting) :
    (page.replaceUnder selector paint).elements.length = page.elements.length := by
  simp [replaceUnder]

end Page

namespace Highlighter

/-- The page after the highlighter has painted its elements.  Without rules it leaves the page
as it is. -/
def apply (h : Highlighter) (page : Page) : Page :=
  match h.rules with
  | none => page
  | some rules => page.replaceUnder h.selector rules.paint

/-- Number of elements that `apply` paints. -/
def appliedTo (h : Highlighter) (page : Page) : Nat :=
  if h.isConfigured then (page.subjects h.selector).length else 0

theorem apply_of_not_isConfigured {h : Highlighter} (hc : h.isConfigured = false) (page : Page) :
    h.apply page = page := by
  obtain ⟨selector, rules⟩ := h
  cases rules with
  | none => rfl
  | some r => simp [isConfigured] at hc

@[simp] theorem builds_apply (h : Highlighter) (page : Page) :
    (h.apply page).builds = page.builds := by
  unfold apply
  split <;> simp

end Highlighter

end Tint
