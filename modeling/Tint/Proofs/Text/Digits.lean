import Mathlib.Data.Nat.Init
import Tint.Text.DecimalDigit
import Tint.Text.Numeral
set_option autoImplicit false

/-!
# Digits of any script

Of the decimal digits only those from `0` to `9` are ASCII characters.  Each of the others stands for
one of these (`Text.asciiDigit`): the digits of a script are in runs of ten code points, so the place
of a digit in its range tells its value.

The second half is about the decimal numerals of numbers below a thousand, digit by digit.
-/

namespace Tint

/-! ## Values of digits -/

theorem isDigit_iff {c : Char} : c.isDigit = true ↔ 48 ≤ c.toNat ∧ c.toNat ≤ 57 := by
  simp only [Char.isDigit, Bool.and_eq_true, decide_eq_true_eq]
  exact Iff.rfl

/-- Only the first range of the table holds ASCII characters. -/
theorem decimalDigits_ranges : ∀ r ∈ decimalDigits, r = ⟨0x30, 0x39⟩ ∨ 128 ≤ r.first := by
  decide

theorem isDigit_of_isDecimalDigit {c : Char} (hc : c.toNat < 128) (h : isDecimalDigit c = true) :
    c.isDigit = true := by
  obtain ⟨r, hr, hcontains⟩ := List.any_eq_true.1 h
  obtain ⟨hfirst, hlast⟩ := CodeRange.contains_iff.1 hcontains
  rcases decimalDigits_ranges r hr with rfl | hrange
  · exact isDigit_iff.2 ⟨hfirst, hlast⟩
  · omega

namespace Text

/-- The value of a decimal digit. -/
def digitValue (c : Char) : Nat :=
  match decimalDigits.find? (·.contains c) with
  | some range => (c.toNat - range.first) % 10
  | none => 0

/-- A decimal digit as an ASCII digit; any other character as it is. -/
def asciiDigit (c : Char) : Char := if isDecimalDigit c then Nat.digitChar (digitValue c) else c

theorem digitValue_lt (c : Char) : digitValue c < 10 := by
  unfold digitValue
  split
  · exact Nat.mod_lt _ (by decide)
  · decide

theorem digitValue_of_isDigit {c : Char} (h : c.isDigit = true) : digitValue c = c.toNat - 48 := by
  have hc := isDigit_iff.1 h
  have hfind : decimalDigits.find? (·.contains c) = some ⟨0x30, 0x39⟩ :=
    List.find?_cons_of_pos (CodeRange.contains_iff.2 hc)
  rw [digitValue, hfind]
  dsimp only
  omega

/-- An ASCII digit is the one of its value. -/
theorem digitChar_of_isDigit {c : Char} (h : c.isDigit = true) :
    c.toNat - 48 < 10 ∧ Nat.digitChar (c.toNat - 48) = c := by
  have hc := isDigit_iff.1 h
  refine ⟨by omega, Char.toNat_inj.1 ?_⟩
  rw [Nat.toNat_digitChar_of_lt_ten (by omega)]
  omega

theorem isDigit_asciiDigit {c : Char} (h : isDecimalDigit c = true) :
    (asciiDigit c).isDigit = true := by
  rw [asciiDigit, if_pos h, Nat.isDigit_digitChar]
  exact decide_eq_true (digitValue_lt c)

theorem asciiDigit_of_lt {c : Char} (hc : c.toNat < 128) : asciiDigit c = c := by
  unfold asciiDigit
  split
  · rename_i h
    have hdigit := isDigit_of_isDecimalDigit hc h
    rw [digitValue_of_isDigit hdigit, (digitChar_of_isDigit hdigit).2]
  · rfl

/-! ## Numerals of up to three digits -/

theorem digitChar_le_iff {a b : Nat} (ha : a < 10) (hb : b < 10) :
    Nat.digitChar a ≤ Nat.digitChar b ↔ a ≤ b := by
  have hle : Nat.digitChar a ≤ Nat.digitChar b ↔
      (Nat.digitChar a).toNat ≤ (Nat.digitChar b).toNat := Iff.rfl
  rw [hle, Nat.toNat_digitChar_of_lt_ten ha, Nat.toNat_digitChar_of_lt_ten hb]
  omega

theorem digitChar_inj {a b : Nat} (ha : a < 10) (hb : b < 10) :
    Nat.digitChar a = Nat.digitChar b ↔ a = b := by
  rw [← Char.toNat_inj, Nat.toNat_digitChar_of_lt_ten ha, Nat.toNat_digitChar_of_lt_ten hb]
  omega

theorem decimal_one {a : Nat} (ha : a < 10) : decimal a = [Nat.digitChar a] :=
  Nat.toDigits_of_lt_base ha

theorem decimal_append {n d : Nat} (hn : 0 < n) (hd : d < 10) :
    decimal (10 * n + d) = decimal n ++ [Nat.digitChar d] := by
  rw [decimal, ← Nat.toDigits_append_toDigits (by decide) hn hd, Nat.toDigits_of_lt_base hd]
  rfl

theorem decimal_two {a b : Nat} (ha : 0 < a) (ha' : a < 10) (hb : b < 10) :
    decimal (10 * a + b) = [Nat.digitChar a, Nat.digitChar b] := by
  rw [decimal_append ha hb, decimal_one ha']
  rfl

theorem decimal_three {a b c : Nat} (ha : 0 < a) (ha' : a < 10) (hb : b < 10) (hc : c < 10) :
    decimal (10 * (10 * a + b) + c) = [Nat.digitChar a, Nat.digitChar b, Nat.digitChar c] := by
  rw [decimal_append (by omega) hc, decimal_two ha ha' hb]
  rfl

end Text

end Tint
