import Tint.Text.Basic
set_option autoImplicit false

/-!
# Lines of a text

`Text.lines` cuts a text at its line feeds.  The other way round, `Text.ofLines` puts lines below
one another, and as long as no line holds a line feed the same lines come back (`lines_ofLines`).
The same holds of the parts of a text between any separators: they are the parts that hold no
separator and make up the text (`pieces_eq_iff`).
-/

namespace Tint.Text

theorem pieces_of_notMem {s : Char} {t : Text} (h : s ∉ t) : pieces s t = [t] := by
  induction t with
  | nil => rfl
  | cons c r ih =>
    rw [List.mem_cons, not_or] at h
    obtain ⟨part, parts, hr, hcr⟩ := pieces_cons_of_ne (Ne.symm h.1) r
    rw [ih h.2] at hr
    cases hr
    exact hcr

/-- No part holds the separator. -/
theorem notMem_of_mem_pieces {s : Char} {t part : Text} (h : part ∈ pieces s t) : s ∉ part := by
  induction t generalizing part with
  | nil =>
    rw [pieces_nil, List.mem_singleton] at h
    simp [h]
  | cons c r ih =>
    by_cases hc : c = s
    · subst hc
      rw [pieces_cons_separator] at h
      rcases List.mem_cons.1 h with rfl | h
      · simp
      · exact ih h
    · obtain ⟨first, parts, hr, hcr⟩ := pieces_cons_of_ne hc r
      rw [hr] at ih
      rw [hcr] at h
      rcases List.mem_cons.1 h with rfl | h
      · rw [List.mem_cons, not_or]
        exact ⟨Ne.symm hc, ih List.mem_cons_self⟩
      · exact ih (List.mem_cons_of_mem _ h)

/-- Joining parts that hold no separator and cutting the whole gives the parts back. -/
theorem pieces_intercalate {s : Char} {part : Text} {parts : List Text}
    (h : ∀ p ∈ part :: parts, s ∉ p) :
    pieces s (List.intercalate [s] (part :: parts)) = part :: parts := by
  induction parts generalizing part with
  | nil =>
    rw [List.intercalate_singleton]
    exact pieces_of_notMem (h part List.mem_cons_self)
  | cons next parts ih =>
    have hpart : pieces s part = [part] := pieces_of_notMem (h part List.mem_cons_self)
    have hparts := ih fun p hp => h p (List.mem_cons_of_mem part hp)
    rw [List.intercalate_cons_cons, List.append_assoc, List.singleton_append,
      pieces_append_separator, hpart, hparts, List.singleton_append]

/-- Joining the parts of a text gives the text back. -/
theorem intercalate_pieces (s : Char) (t : Text) : List.intercalate [s] (pieces s t) = t := by
  induction t with
  | nil => rw [pieces_nil, List.intercalate_singleton]
  | cons c r ih =>
    by_cases hc : c = s
    · subst hc
      obtain ⟨part, parts, hr⟩ := List.exists_cons_of_ne_nil (pieces_ne_nil c r)
      rw [pieces_cons_separator, hr, List.intercalate_cons_cons, ← hr, ih]
      rfl
    · obtain ⟨part, parts, hr, hcr⟩ := pieces_cons_of_ne hc r
      rw [hr] at ih
      rw [hcr]
      cases parts with
      | nil =>
        rw [List.intercalate_singleton] at ih ⊢
        rw [ih]
      | cons next parts =>
        rw [List.intercalate_cons_cons, List.append_assoc] at ih ⊢
        rw [List.cons_append, ih]

/-- A text has its parts in one way only. -/
theorem pieces_eq_iff {s : Char} {t part : Text} {parts : List Text} :
    pieces s t = part :: parts ↔
      t = List.intercalate [s] (part :: parts) ∧ ∀ p ∈ part :: parts, s ∉ p := by
  constructor
  · intro h
    refine ⟨?_, fun p hp => notMem_of_mem_pieces (h ▸ hp)⟩
    rw [← h, intercalate_pieces]
  · rintro ⟨rfl, hnotMem⟩
    exact pieces_intercalate hnotMem

theorem lines_ne_nil (t : Text) : t.lines ≠ [] := pieces_ne_nil '\n' t

theorem lines_append_newline (a b : Text) : lines (a ++ '\n' :: b) = a.lines ++ b.lines :=
  pieces_append_separator '\n' a b

/-- The lines, one below the other. -/
def ofLines (lines : List Text) : Text := List.intercalate ['\n'] lines

theorem lines_ofLines {first : Text} {rest : List Text}
    (h : ∀ line ∈ first :: rest, '\n' ∉ line) : (ofLines (first :: rest)).lines = first :: rest :=
  pieces_intercalate h

end Tint.Text
