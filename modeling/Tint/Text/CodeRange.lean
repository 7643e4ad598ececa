import Tint.Text.Basic
set_option autoImplicit false

/-!
# Ranges of code points

The character properties of this library that are not small enough to be written as a test
are tables of code point ranges, in ascending order.
-/

namespace Tint

/-- The code points from `first` to `last`, both included. -/
structure CodeRange where
  first : Nat
  last : Nat
  deriving DecidableEq, Repr, Inhabited

namespace CodeRange

/-- The code point of `c` lies in the range. -/
def contains (r : CodeRange) (c : Char) : Bool := r.first ≤ c.toNat && c.toNat ≤ r.last

theorem contains_iff {r : CodeRange} {c : Char} :
    r.contains c = true ↔ r.first ≤ c.toNat ∧ c.toNat ≤ r.last := by
  simp [contains]

end CodeRange

/-- The code point of `c` lies in a range of the table. -/
def inTable (table : List CodeRange) (c : Char) : Bool := table.any (·.contains c)

end Tint
