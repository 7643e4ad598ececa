import Mathlib.Computability.Language
import Tint.Proofs.Markup.Tokens
set_option autoImplicit false

/-!
# Balanced markup

The languages that markup is made of: escaped characters, and spans of one plain color around the
words of another language.  A word is balanced to some depth (`Balanced`) when its tags nest no
deeper and close again, and nothing unescaped stands between them, whatever follows the word.
Words that are balanced can be joined, repeated and put into a span, which is one level deeper.
-/

namespace Tint.Markup

open Color (IsPlain)
open scoped Computability

/-- The escaped forms of single characters. -/
def escapedChar : Language Char := {t | ∃ c, t = escapeChar c}

/-- A span of a plain color around a word of the language. -/
def span (color : Text) (inner : Language Char) : Language Char :=
  {t | IsPlain color ∧ ∃ s ∈ inner, t = openSpan color ++ s ++ closeSpan}

/-- In front of any text, the tags of the word nest up to `depth` and the rest of it is escaped. -/
def Balanced (depth : Nat) (t : Text) : Prop :=
  ∃ (ts : List Text) (u : Text), (∀ r, tags (t ++ r) = ts ++ tags r) ∧
    (∀ r, stripTags (t ++ r) = escape u ++ stripTags r) ∧
    ∀ limit n, n + depth ≤ limit → Nests limit n ts n

variable {depth : Nat} {s t : Text} {color : Text}

theorem balanced_escape (depth : Nat) (t : Text) : Balanced depth (escape t) := by
  refine ⟨[], t, ?_, ?_, ?_⟩
  · intro r
    exact tags_escape_append t r
  · intro r
    exact stripTags_escape_append t r
  · intro limit n _
    exact .nil n

namespace Balanced

theorem append (hs : Balanced depth s) (ht : Balanced depth t) : Balanced depth (s ++ t) := by
  obtain ⟨ts, u, htags, hstrip, hnests⟩ := hs
  obtain ⟨ts', u', htags', hstrip', hnests'⟩ := ht
  refine ⟨ts ++ ts', u ++ u', ?_, ?_, ?_⟩
  · intro r
    rw [List.append_assoc, htags, htags', List.append_assoc]
  · intro r
    rw [List.append_assoc, hstrip, hstrip', escape_append, List.append_assoc]
  · intro limit n hle
    exact (hnests limit n hle).append (hnests' limit n hle)

theorem mono {depth' : Nat} (h : Balanced depth t) (hle : depth ≤ depth') : Balanced depth' t := by
  obtain ⟨ts, u, htags, hstrip, hnests⟩ := h
  refine ⟨ts, u, htags, hstrip, ?_⟩
  intro limit n hn
  exact hnests limit n (by omega)

theorem wrap (hcolor : IsPlain color) (hs : Balanced depth s) :
    Balanced (depth + 1) (openSpan color ++ s ++ closeSpan) := by
  obtain ⟨ts, u, htags, hstrip, hnests⟩ := hs
  refine ⟨openSpan color :: (ts ++ [closeSpan]), u, ?_, ?_, ?_⟩
  · intro r
    rw [List.append_assoc, List.append_assoc, tags_openSpan_append hcolor, htags,
      tags_closeSpan_append]
    simp
  · intro r
    rw [List.append_assoc, List.append_assoc, stripTags_openSpan_append hcolor, hstrip,
      stripTags_closeSpan_append]
  · intro limit n hle
    have hinner : Nests limit (n + 1) ts (n + 1) := hnests limit (n + 1) (by omega)
    exact .start hcolor (by omega) (hinner.append (.stop (.nil n)))

theorem of_mem_span {inner : Language Char} (hinner : ∀ s ∈ inner, Balanced depth s)
    (h : t ∈ span color inner) : Balanced (depth + 1) t := by
  obtain ⟨hcolor, s, hs, rfl⟩ := h
  exact wrap hcolor (hinner s hs)

theorem of_mem_mul {l m : Language Char} (hl : ∀ s ∈ l, Balanced depth s)
    (hm : ∀ s ∈ m, Balanced depth s) (h : t ∈ l * m) : Balanced depth t := by
  obtain ⟨a, ha, b, hb, rfl⟩ := Language.mem_mul.1 h
  exact (hl a ha).append (hm b hb)

theorem of_mem_kstar {l : Language Char} (hl : ∀ s ∈ l, Balanced depth s) (h : t ∈ l∗) :
    Balanced depth t := by
  obtain ⟨words, rfl, hwords⟩ := Language.mem_kstar.1 h
  clear h
  induction words with
  | nil => exact balanced_escape depth []
  | cons a words ih =>
    have ha := hl a (hwords a List.mem_cons_self)
    exact ha.append (ih fun b hb => hwords b (List.mem_cons_of_mem _ hb))

theorem of_mem_escapedChar (h : t ∈ escapedChar) : Balanced depth t := by
  obtain ⟨c, rfl⟩ := h
  have hc := balanced_escape depth [c]
  rwa [escape_cons, escape_nil, List.append_nil] at hc

/-- The tags of a balanced text lead from no open span to none. -/
theorem nests (h : Balanced depth t) : Nests depth 0 (tags t) 0 := by
  obtain ⟨ts, u, htags, -, hnests⟩ := h
  have ht := htags []
  rw [List.append_nil] at ht
  rw [ht]
  exact (hnests depth 0 (by omega)).append (.nil 0)

theorem isEscaped_stripTags (h : Balanced depth t) : IsEscaped (stripTags t) := by
  obtain ⟨ts, u, -, hstrip, -⟩ := h
  have ht := hstrip []
  have hnil : stripTags [] = [] := rfl
  rw [List.append_nil, hnil, List.append_nil] at ht
  rw [ht]
  exact isEscaped_escape u

end Balanced

end Tint.Markup
