import Tint.Text.Basic
set_option autoImplicit false

/-!
# Markup

The little HTML that the painter writes: escaped text and colored spans.  `escapeChar` leaves
no character behind that could start a tag or a reference, so the only tags of an output are
the ones written by `openSpan` and `closeSpan`.
-/

namespace Tint.Markup

/-- A character as it stands in HTML. -/
def escapeChar (c : Char) : Text :=
  if c = '&' then "&amp;".toList
  else if c = '<' then "&lt;".toList
  else if c = '>' then "&gt;".toList
  else [c]

/-- A text as it stands in HTML. -/
def escape (t : Text) : Text := t.flatMap escapeChar

/-- The tag that starts a span of one color. -/
def openSpan (color : Text) : Text := "<span style=\"color:".toList ++ color ++ "\">".toList

/-- The tag that ends a span. -/
def closeSpan : Text := "</span>".toList

/-- Escaped text inside a span of its own. -/
def colored (color t : Text) : Text := openSpan color ++ escape t ++ closeSpan

@[simp] theorem escape_nil : escape [] = [] := rfl

@[simp] theorem escape_cons (c : Char) (t : Text) : escape (c :: t) = escapeChar c ++ escape t := by
  simp [escape]

@[simp] theorem escape_append (s t : Text) : escape (s ++ t) = escape s ++ escape t := by
  simp [escape]

/-- Escaped text holds no angle bracket. -/
theorem not_mem_escape {c : Char} (h : c = '<' ∨ c = '>') (t : Text) : c ∉ escape t := by
  induction t with
  | nil => simp
  | cons d r ih =>
    simp only [escape_cons, List.mem_append, not_or, ih, not_false_eq_true, and_true]
    unfold escapeChar
    rcases h with rfl | rfl <;> (repeat' split) <;> simp_all [eq_comm]

end Tint.Markup
