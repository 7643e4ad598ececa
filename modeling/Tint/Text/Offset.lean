import Tint.Text.Basic
set_option autoImplicit false

/-!
# Offsets into a text

An offset counts bytes of the UTF-8 form.  It lies on a character boundary when it is the
size of the characters before it; only then is there a text that starts at it.
-/

namespace Tint.Text

/-- The text from an offset on; nothing inside a character or past the end. -/
def dropBytes? : (offset : Nat) → Text → Option Text
  | 0, t => some t
  | _ + 1, [] => none
  | n + 1, c :: r => if c.utf8Size ≤ n + 1 then dropBytes? (n + 1 - c.utf8Size) r else none

theorem dropBytes?_size_append (a b : Text) : dropBytes? (size a) (a ++ b) = some b := by
  induction a with
  | nil => simp [dropBytes?]
  | cons c r ih =>
    have hc := Char.utf8Size_pos c
    obtain ⟨k, hk⟩ : ∃ k, size (c :: r) = k + 1 := ⟨size (c :: r) - 1, by rw [size_cons]; omega⟩
    have hle : c.utf8Size ≤ k + 1 := by rw [← hk, size_cons]; omega
    have hsub : k + 1 - c.utf8Size = size r := by rw [← hk, size_cons]; omega
    rw [hk, List.cons_append, dropBytes?, if_pos hle, hsub, ih]

/-- There is a text from an offset on exactly when the offset is the size of what comes before
that text. -/
theorem dropBytes?_eq_some_iff {n : Nat} {t rest : Text} :
    dropBytes? n t = some rest ↔ ∃ before, t = before ++ rest ∧ size before = n := by
  constructor
  · intro h
    induction n, t using dropBytes?.induct with
    | case1 t => exact ⟨[], by simpa [dropBytes?] using h⟩
    | case2 n => simp [dropBytes?] at h
    | case3 n c r hle ih =>
      rw [dropBytes?, if_pos hle] at h
      obtain ⟨before, rfl, hsize⟩ := ih h
      exact ⟨c :: before, rfl, by rw [size_cons, hsize]; omega⟩
    | case4 n c r hle =>
      rw [dropBytes?, if_neg hle] at h
      cases h
  · rintro ⟨before, rfl, rfl⟩
    exact dropBytes?_size_append before rest

end Tint.Text
