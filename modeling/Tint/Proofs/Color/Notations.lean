import Mathlib.Computability.Language
import Tint.Proofs.Rules.WellFormed
import Tint.Proofs.Text.Digits
import Tint.Proofs.Text.Lines
set_option autoImplicit false

/-!
# The language of color codes

The four notations of a color, as expressions over texts (`Color.code`).  A text is recognised as a
color code exactly when it is a word of this language once its blanks are gone
(`Color.isCode_iff_mem_code`).

The language has the channels as a parameter.  Those of the recogniser are `Color.channel`; as far as
ASCII characters go, they are the decimal numerals of the numbers up to 255 (`Color.byteNumeral`).
-/

namespace Tint

open scoped Computability

/-! ## Texts by their characters -/

namespace Text

/-- Single characters of a class. -/
def oneOf (p : Char → Bool) : Language Char := {t | ∃ c, p c = true ∧ t = [c]}

/-- The single characters from `first` to `last`. -/
def range (first last : Char) : Language Char := oneOf fun c => first ≤ c && c ≤ last

/-- The spellings of a word, given in lower case, with letters in either case. -/
def anyCase (word : Text) : Language Char := {t | t.map Char.toLower = word}

/-- Only capital letters change in lower case, by the distance of the two alphabets. -/
theorem toNat_toLower (c : Char) :
    c.toLower.toNat = if 65 ≤ c.toNat ∧ c.toNat ≤ 90 then c.toNat + 32 else c.toNat := by
  have hupper : (c.val ≥ 'A'.val ∧ c.val ≤ 'Z'.val) ↔ (65 ≤ c.toNat ∧ c.toNat ≤ 90) := Iff.rfl
  unfold Char.toLower
  split
  · rename_i h
    have hle := (hupper.1 h).2
    have hsum : (c.val + 32).toNat = (c.toNat + 32) % 2 ^ 32 := UInt32.toNat_add c.val 32
    rw [if_pos (hupper.1 h)]
    exact hsum.trans (Nat.mod_eq_of_lt (by omega))
  · rename_i h
    rw [if_neg (mt hupper.2 h)]

variable {p : Char → Bool} {l : Language Char} {t : Text}

theorem mem_oneOf : t ∈ oneOf p ↔ ∃ c, p c = true ∧ t = [c] := Iff.rfl

theorem mem_oneOf_mul : t ∈ oneOf p * l ↔ ∃ c r, t = c :: r ∧ p c = true ∧ r ∈ l := by
  rw [Language.mem_mul]
  constructor
  · rintro ⟨a, ⟨c, hc, rfl⟩, r, hr, rfl⟩
    exact ⟨c, r, rfl, hc, hr⟩
  · rintro ⟨c, r, rfl, hc, hr⟩
    exact ⟨[c], ⟨c, hc, rfl⟩, r, hr, rfl⟩

theorem mem_singleton_mul {s : Text} : t ∈ ({s} * l : Language Char) ↔ ∃ r ∈ l, t = s ++ r := by
  rw [Language.mem_mul]
  constructor
  · rintro ⟨a, rfl, r, hr, rfl⟩
    exact ⟨r, hr, rfl⟩
  · rintro ⟨r, hr, rfl⟩
    exact ⟨s, rfl, r, hr, rfl⟩

/-- Repeating single characters gives the texts of such characters. -/
theorem mem_kstar_oneOf : t ∈ (oneOf p)∗ ↔ ∀ c ∈ t, p c = true := by
  induction t with
  | nil => exact iff_of_true (Language.nil_mem_kstar _) fun _ h => nomatch h
  | cons c r ih =>
    rw [← Language.one_add_self_mul_kstar_eq_kstar, Language.mem_add, Language.mem_one,
      mem_oneOf_mul, List.forall_mem_cons, ← ih]
    simp

theorem mem_oneOf_pow {n : Nat} : t ∈ oneOf p ^ n ↔ t.length = n ∧ ∀ c ∈ t, p c = true := by
  induction n generalizing t with
  | zero =>
    rw [pow_zero, Language.mem_one, List.length_eq_zero_iff]
    constructor
    · rintro rfl
      exact ⟨rfl, fun _ h => nomatch h⟩
    · exact And.left
  | succ n ih =>
    rw [pow_succ', mem_oneOf_mul]
    constructor
    · rintro ⟨c, r, rfl, hc, hr⟩
      obtain ⟨hlength, hall⟩ := ih.1 hr
      exact ⟨congrArg Nat.succ hlength, List.forall_mem_cons.2 ⟨hc, hall⟩⟩
    · rintro ⟨hlength, hall⟩
      obtain ⟨c, r, rfl⟩ := List.exists_cons_of_length_eq_add_one hlength
      obtain ⟨hc, hr⟩ := List.forall_mem_cons.1 hall
      exact ⟨c, r, rfl, hc, ih.2 ⟨Nat.succ.inj hlength, hr⟩⟩

end Text

namespace Color

open Text (oneOf range anyCase)

/-! ## The notations -/

/-- Three or six hexadecimal digits behind a `#`. -/
def hexCode : Language Char := {"#".toList} * (oneOf isHexDigit ^ 3 + oneOf isHexDigit ^ 6)

/-- From 250 to 255, from 200 to 249, from 100 to 199, and from 0 to 99; the digits that the bound
does not fix are of any script. -/
def channel : Language Char :=
  {"25".toList} * range '0' '5' + {"2".toList} * range '0' '4' * oneOf isDecimalDigit +
    {"1".toList} * oneOf isDecimalDigit * oneOf isDecimalDigit +
    (1 + range '1' '9') * oneOf isDecimalDigit

/-- One or more ASCII digits. -/
def numeral : Language Char := oneOf Char.isDigit * (oneOf Char.isDigit)∗

/-- A numeral, or a point between any number of ASCII digits and a numeral. -/
def alpha : Language Char := numeral + (oneOf Char.isDigit)∗ * {".".toList} * numeral

/-- A name in either case with arguments in parentheses. -/
def call (name : Text) (arguments : Language Char) : Language Char :=
  anyCase name * {"(".toList} * arguments * {")".toList}

/-- Three channels with commas between them. -/
def channels (channel : Language Char) : Language Char :=
  channel * {",".toList} * channel * {",".toList} * channel

/-- The color codes with the given channels. -/
def code (channel : Language Char) : Language Char :=
  hexCode + call "rgb".toList (channels channel) + call "rgba".toList (channels channel) +
    call "rgba".toList (channels channel * {",".toList} * alpha)

/-- An alpha is digits that may be missing, a point that may be missing, and a numeral. -/
theorem alpha_eq : alpha = (oneOf Char.isDigit)∗ * (1 + {".".toList}) * numeral := by
  have hdigits : (oneOf Char.isDigit)∗ * numeral = numeral := by
    rw [numeral, ← mul_assoc, Language.mul_self_kstar_comm, mul_assoc, kstar_mul_kstar]
  rw [mul_add, mul_one, add_mul, hdigits, alpha]

variable {t : Text}

/-! ## Channels -/

/-- The four alternatives, by their characters. -/
theorem mem_channel_iff_or : t ∈ channel ↔
    (∃ d, ('0' ≤ d ∧ d ≤ '5') ∧ t = ['2', '5', d]) ∨
    (∃ tens d, ('0' ≤ tens ∧ tens ≤ '4') ∧ isDecimalDigit d = true ∧ t = ['2', tens, d]) ∨
    (∃ tens d, isDecimalDigit tens = true ∧ isDecimalDigit d = true ∧ t = ['1', tens, d]) ∨
    (∃ tens d, ('1' ≤ tens ∧ tens ≤ '9') ∧ isDecimalDigit d = true ∧ t = [tens, d]) ∨
    ∃ d, isDecimalDigit d = true ∧ t = [d] := by
  simp only [channel, range, mul_assoc, add_mul, one_mul, Language.mem_add,
    Text.mem_singleton_mul, Text.mem_oneOf_mul, Text.mem_oneOf, Bool.and_eq_true, decide_eq_true_eq]
  constructor
  · rintro (((⟨_, ⟨d, hd, rfl⟩, rfl⟩ | ⟨_, ⟨tens, _, rfl, htens, d, hd, rfl⟩, rfl⟩) |
      ⟨_, ⟨tens, _, rfl, htens, d, hd, rfl⟩, rfl⟩) | ⟨d, hd, rfl⟩ | ⟨tens, _, rfl, htens, d, hd, rfl⟩)
    · exact .inl ⟨d, hd, rfl⟩
    · exact .inr (.inl ⟨tens, d, htens, hd, rfl⟩)
    · exact .inr (.inr (.inl ⟨tens, d, htens, hd, rfl⟩))
    · exact .inr (.inr (.inr (.inr ⟨d, hd, rfl⟩)))
    · exact .inr (.inr (.inr (.inl ⟨tens, d, htens, hd, rfl⟩)))
  · rintro (⟨d, hd, rfl⟩ | ⟨tens, d, htens, hd, rfl⟩ | ⟨tens, d, htens, hd, rfl⟩ |
      ⟨tens, d, htens, hd, rfl⟩ | ⟨d, hd, rfl⟩)
    · exact .inl (.inl (.inl ⟨[d], ⟨d, hd, rfl⟩, rfl⟩))
    · exact .inl (.inl (.inr ⟨[tens, d], ⟨tens, [d], rfl, htens, d, hd, rfl⟩, rfl⟩))
    · exact .inl (.inr ⟨[tens, d], ⟨tens, [d], rfl, htens, d, hd, rfl⟩, rfl⟩)
    · exact .inr (.inr ⟨tens, [d], rfl, htens, d, hd, rfl⟩)
    · exact .inr (.inl ⟨d, hd, rfl⟩)

theorem mem_channel_iff : t ∈ channel ↔ isChannel t = true := by
  rw [mem_channel_iff_or]
  constructor
  · rintro (⟨d, hd, rfl⟩ | ⟨tens, d, htens, hd, rfl⟩ | ⟨tens, d, htens, hd, rfl⟩ |
      ⟨tens, d, htens, hd, rfl⟩ | ⟨d, hd, rfl⟩)
    all_goals simp [isChannel, *]
  · intro h
    unfold isChannel at h
    split at h
    · rename_i d
      exact .inr (.inr (.inr (.inr ⟨d, h, rfl⟩)))
    · rename_i tens d
      simp only [Bool.and_eq_true, decide_eq_true_eq] at h
      exact .inr (.inr (.inr (.inl ⟨tens, d, h.1, h.2, rfl⟩)))
    · rename_i hundreds tens d
      simp only [Bool.or_eq_true, Bool.and_eq_true, beq_iff_eq, decide_eq_true_eq] at h
      rcases h with (⟨⟨rfl, htens⟩, hd⟩ | ⟨⟨⟨rfl, hlow⟩, hhigh⟩, hd⟩) | ⟨⟨⟨rfl, rfl⟩, hlow⟩, hhigh⟩
      · exact .inr (.inr (.inl ⟨tens, d, htens, hd, rfl⟩))
      · exact .inr (.inl ⟨tens, d, ⟨hlow, hhigh⟩, hd, rfl⟩)
      · exact .inl ⟨d, ⟨hlow, hhigh⟩, rfl⟩
    · cases h

theorem isDecimalDigit_digitChar {a : Nat} (ha : a < 10) :
    isDecimalDigit (Nat.digitChar a) = true := by
  apply isDecimalDigit_of_isDigit
  rw [Nat.isDigit_digitChar]
  exact decide_eq_true ha

theorem mem_channel_one {a : Nat} (ha : a < 10) : [Nat.digitChar a] ∈ channel :=
  mem_channel_iff.2 (isDecimalDigit_digitChar ha)

theorem mem_channel_two {a b : Nat} (ha : a < 10) (hb : b < 10) :
    [Nat.digitChar a, Nat.digitChar b] ∈ channel ↔ 0 < a := by
  have hlow : '1' ≤ Nat.digitChar a ↔ 1 ≤ a := Text.digitChar_le_iff (a := 1) (by decide) ha
  have hhigh : Nat.digitChar a ≤ '9' ↔ a ≤ 9 := Text.digitChar_le_iff (b := 9) ha (by decide)
  rw [mem_channel_iff, isChannel, Bool.and_eq_true, Bool.and_eq_true, decide_eq_true_eq,
    decide_eq_true_eq, hlow, hhigh]
  simp only [isDecimalDigit_digitChar hb, and_true]
  omega

theorem mem_channel_three {a b c : Nat} (ha : a < 10) (hb : b < 10) (hc : c < 10) :
    [Nat.digitChar a, Nat.digitChar b, Nat.digitChar c] ∈ channel ↔
      0 < a ∧ 10 * (10 * a + b) + c ≤ 255 := by
  have hone : Nat.digitChar a = '1' ↔ a = 1 := Text.digitChar_inj (b := 1) ha (by decide)
  have htwo : Nat.digitChar a = '2' ↔ a = 2 := Text.digitChar_inj (b := 2) ha (by decide)
  have hfive : Nat.digitChar b = '5' ↔ b = 5 := Text.digitChar_inj (b := 5) hb (by decide)
  have hfour : Nat.digitChar b ≤ '4' ↔ b ≤ 4 := Text.digitChar_le_iff (b := 4) hb (by decide)
  have hlast : Nat.digitChar c ≤ '5' ↔ c ≤ 5 := Text.digitChar_le_iff (b := 5) hc (by decide)
  have hzero {k : Nat} (hk : k < 10) : '0' ≤ Nat.digitChar k :=
    (Text.digitChar_le_iff (a := 0) (by decide) hk).2 (Nat.zero_le k)
  rw [mem_channel_iff]
  simp only [isChannel, Bool.or_eq_true, Bool.and_eq_true, beq_iff_eq, decide_eq_true_eq, hone, htwo,
    hfive, hfour, hlast, hzero hb, hzero hc, isDecimalDigit_digitChar hb,
    isDecimalDigit_digitChar hc, and_true]
  omega

/-- The numerals of the numbers up to 255. -/
def byteNumeral : Language Char := {t | ∃ n ≤ 255, t = Text.decimal n}

/-- A channel of ASCII characters is the numeral of a number up to 255. -/
theorem mem_channel_iff_mem_byteNumeral (hascii : ∀ c ∈ t, c.toNat < 128) :
    t ∈ channel ↔ t ∈ byteNumeral := by
  have hdigit {c : Char} (hc : c.toNat < 128) (h : isDecimalDigit c = true) :
      ∃ k < 10, c = Nat.digitChar k := by
    obtain ⟨hlt, hchar⟩ := Text.digitChar_of_isDigit (isDigit_of_isDecimalDigit hc h)
    exact ⟨_, hlt, hchar.symm⟩
  constructor
  · intro h
    have hall (c : Char) (hc : c ∈ t) : ∃ k < 10, c = Nat.digitChar k :=
      hdigit (hascii c hc) (isDecimalDigit_of_mem_isChannel (mem_channel_iff.1 h) hc)
    match t, h, hall with
    | [c], h, hall =>
      obtain ⟨a, ha, rfl⟩ := hall c (by simp)
      exact ⟨a, by omega, (Text.decimal_one ha).symm⟩
    | [c, d], h, hall =>
      obtain ⟨a, ha, rfl⟩ := hall c (by simp)
      obtain ⟨b, hb, rfl⟩ := hall d (by simp)
      have hpos := (mem_channel_two ha hb).1 h
      exact ⟨10 * a + b, by omega, (Text.decimal_two hpos ha hb).symm⟩
    | [c, d, e], h, hall =>
      obtain ⟨a, ha, rfl⟩ := hall c (by simp)
      obtain ⟨b, hb, rfl⟩ := hall d (by simp)
      obtain ⟨k, hk, rfl⟩ := hall e (by simp)
      obtain ⟨hpos, hle⟩ := (mem_channel_three ha hb hk).1 h
      exact ⟨10 * (10 * a + b) + k, hle, (Text.decimal_three hpos ha hb hk).symm⟩
    | [], h, _ => exact absurd (mem_channel_iff.1 h) (by decide)
    | c :: d :: e :: f :: r, h, _ => exact absurd (mem_channel_iff.1 h) (by simp [isChannel])
  · rintro ⟨n, hn, rfl⟩
    rcases Nat.lt_or_ge n 10 with hten | hten
    · rw [Text.decimal_one hten]
      exact mem_channel_one hten
    · have hsplit : n = 10 * (n / 10) + n % 10 := by omega
      rcases Nat.lt_or_ge n 100 with hhundred | hhundred
      · rw [hsplit, Text.decimal_two (by omega) (by omega) (by omega)]
        exact (mem_channel_two (by omega) (by omega)).2 (by omega)
      · have htens : n / 10 = 10 * (n / 100) + n / 10 % 10 := by omega
        rw [hsplit, htens, Text.decimal_three (by omega) (by omega) (by omega) (by omega)]
        exact (mem_channel_three (by omega) (by omega) (by omega)).2 (by omega)

/-! ## Alphas -/

theorem mem_numeral_iff : t ∈ numeral ↔ isNumeral t = true := by
  rw [numeral, Text.mem_oneOf_mul, isNumeral]
  constructor
  · rintro ⟨c, r, rfl, hc, hr⟩
    simpa [hc] using Text.mem_kstar_oneOf.1 hr
  · intro h
    rw [Bool.and_eq_true, List.all_eq_true] at h
    obtain ⟨hne, hall⟩ := h
    obtain ⟨c, r, rfl⟩ := List.exists_cons_of_ne_nil (l := t) (by simpa using hne)
    obtain ⟨hc, hr⟩ := List.forall_mem_cons.1 hall
    exact ⟨c, r, rfl, hc, Text.mem_kstar_oneOf.2 hr⟩

theorem mem_alpha_iff : t ∈ alpha ↔ isAlpha t = true := by
  have hpoint : t ∈ (oneOf Char.isDigit)∗ * {".".toList} * numeral ↔
      ∃ whole fraction, t = whole ++ '.' :: fraction ∧ (∀ c ∈ whole, c.isDigit = true) ∧
        isNumeral fraction = true := by
    rw [mul_assoc, Language.mem_mul]
    simp only [Text.mem_singleton_mul, Text.mem_kstar_oneOf, mem_numeral_iff]
    constructor
    · rintro ⟨whole, hwhole, _, ⟨fraction, hfraction, rfl⟩, rfl⟩
      exact ⟨whole, fraction, rfl, hwhole, hfraction⟩
    · rintro ⟨whole, fraction, rfl, hwhole, hfraction⟩
      exact ⟨whole, hwhole, _, ⟨fraction, hfraction, rfl⟩, rfl⟩
  rw [alpha, Language.mem_add, hpoint, mem_numeral_iff]
  constructor
  · rintro (h | ⟨whole, fraction, rfl, hwhole, hfraction⟩)
    · obtain ⟨hne, hall⟩ := Bool.and_eq_true_iff.1 h
      rw [isAlpha, List.dropWhile_eq_nil_iff.2 (List.all_eq_true.1 hall)]
      exact hne
    · rw [isAlpha, List.dropWhile_append_of_pos hwhole]
      exact hfraction
  · intro h
    unfold isAlpha at h
    split at h
    · rename_i hdrop
      refine .inl (Bool.and_eq_true_iff.2 ⟨h, List.all_eq_true.2 ?_⟩)
      exact List.dropWhile_eq_nil_iff.1 hdrop
    · rename_i fraction hdrop
      refine .inr ⟨t.takeWhile Char.isDigit, fraction, ?_, fun _ => List.mem_takeWhile_imp, h⟩
      rw [← hdrop, List.takeWhile_append_dropWhile]
    · cases h

/-! ## Arguments -/

theorem mem_channels_iff {channel : Language Char} :
    t ∈ channels channel ↔ ∃ r ∈ channel, ∃ g ∈ channel, ∃ b ∈ channel,
      t = List.intercalate [','] [r, g, b] := by
  simp only [channels, mul_assoc, Language.mem_mul (l := channel), Text.mem_singleton_mul]
  constructor
  · rintro ⟨r, hr, _, ⟨_, ⟨g, hg, _, ⟨b, hb, rfl⟩, rfl⟩, rfl⟩, rfl⟩
    exact ⟨r, hr, g, hg, b, hb, by simp [List.intercalate_cons_cons]⟩
  · rintro ⟨r, hr, g, hg, b, hb, rfl⟩
    exact ⟨r, hr, _, ⟨_, ⟨g, hg, _, ⟨b, hb, rfl⟩, rfl⟩, rfl⟩, by simp [List.intercalate_cons_cons]⟩

theorem mem_channels_alpha_iff {channel : Language Char} :
    t ∈ channels channel * {",".toList} * alpha ↔ ∃ r ∈ channel, ∃ g ∈ channel, ∃ b ∈ channel,
      ∃ a ∈ alpha, t = List.intercalate [','] [r, g, b, a] := by
  rw [mul_assoc, Language.mem_mul]
  simp only [mem_channels_iff, Text.mem_singleton_mul]
  constructor
  · rintro ⟨_, ⟨r, hr, g, hg, b, hb, rfl⟩, _, ⟨a, ha, rfl⟩, rfl⟩
    exact ⟨r, hr, g, hg, b, hb, a, ha, by simp [List.intercalate_cons_cons]⟩
  · rintro ⟨r, hr, g, hg, b, hb, a, ha, rfl⟩
    exact ⟨_, ⟨r, hr, g, hg, b, hb, rfl⟩, _, ⟨a, ha, rfl⟩, by simp [List.intercalate_cons_cons]⟩

theorem comma_notMem_channel (h : t ∈ channel) : ',' ∉ t := by
  intro hc
  have hdigit := isDecimalDigit_of_mem_isChannel (mem_channel_iff.1 h) hc
  exact absurd hdigit (by decide)

theorem comma_notMem_alpha (h : t ∈ alpha) : ',' ∉ t := by
  intro hc
  rcases isDigit_or_eq_of_mem_isAlpha (mem_alpha_iff.1 h) hc with hdigit | hpoint
  · exact absurd hdigit (by decide)
  · exact absurd hpoint (by decide)

theorem areChannels_iff (withAlpha : Bool) :
    areChannels withAlpha t = true ↔ t ∈ channels channel ∨
      withAlpha = true ∧ t ∈ channels channel * {",".toList} * alpha := by
  rw [mem_channels_iff, mem_channels_alpha_iff]
  constructor
  · intro h
    unfold areChannels at h
    split at h
    · rename_i r g b hpieces
      simp only [Bool.and_eq_true, ← mem_channel_iff] at h
      exact .inl ⟨r, h.1.1, g, h.1.2, b, h.2, (Text.pieces_eq_iff.1 hpieces).1⟩
    · rename_i r g b a hpieces
      simp only [Bool.and_eq_true, ← mem_channel_iff, ← mem_alpha_iff] at h
      obtain ⟨⟨⟨⟨halpha, hr⟩, hg⟩, hb⟩, ha⟩ := h
      exact .inr ⟨halpha, r, hr, g, hg, b, hb, a, ha, (Text.pieces_eq_iff.1 hpieces).1⟩
    · cases h
  · rintro (⟨r, hr, g, hg, b, hb, rfl⟩ | ⟨rfl, r, hr, g, hg, b, hb, a, ha, rfl⟩)
    · have hcommas : ∀ p ∈ [r, g, b], ',' ∉ p := by
        simp [comma_notMem_channel hr, comma_notMem_channel hg, comma_notMem_channel hb]
      rw [areChannels, Text.pieces_intercalate hcommas]
      simp [mem_channel_iff.1 hr, mem_channel_iff.1 hg, mem_channel_iff.1 hb]
    · have hcommas : ∀ p ∈ [r, g, b, a], ',' ∉ p := by
        simp [comma_notMem_channel hr, comma_notMem_channel hg, comma_notMem_channel hb,
          comma_notMem_alpha ha]
      rw [areChannels, Text.pieces_intercalate hcommas]
      simp [mem_channel_iff.1 hr, mem_channel_iff.1 hg, mem_channel_iff.1 hb, mem_alpha_iff.1 ha]

/-! ## Codes -/

theorem mem_call_iff {name : Text} {arguments : Language Char} :
    t ∈ call name arguments ↔ ∃ head args, head.map Char.toLower = name ∧ args ∈ arguments ∧
      t = head ++ '(' :: (args ++ [')']) := by
  simp only [call, mul_assoc, Language.mem_mul (l := anyCase name), Text.mem_singleton_mul,
    Language.mem_mul (l := arguments)]
  constructor
  · rintro ⟨head, hhead, _, ⟨_, ⟨args, hargs, _, rfl, rfl⟩, rfl⟩, rfl⟩
    exact ⟨head, args, hhead, hargs, rfl⟩
  · rintro ⟨head, args, hhead, hargs, rfl⟩
    exact ⟨head, hhead, _, ⟨_, ⟨args, hargs, _, rfl, rfl⟩, rfl⟩, rfl⟩

/-- No capital letter is written as a parenthesis in lower case. -/
theorem eq_of_toLower_eq_parenthesis {c : Char} (h : c.toLower = '(') : c = '(' := by
  have hnat : c.toLower.toNat = 40 := congrArg Char.toNat h
  rw [Text.toNat_toLower] at hnat
  refine Char.toNat_inj.1 ?_
  split at hnat
  · omega
  · exact hnat

theorem arguments?_eq_some_iff {name args : Text} : arguments? name t = some args ↔
    ∃ head, head.map Char.toLower = name ∧ t = head ++ '(' :: (args ++ [')']) := by
  constructor
  · intro h
    obtain ⟨front, hfront, rfl⟩ := arguments?_eq_some h
    obtain ⟨head, last, rfl, hhead, hlast⟩ := List.map_eq_append_iff.1 hfront
    obtain ⟨c, rfl, hc⟩ := List.map_eq_singleton_iff.1 hlast
    obtain rfl := eq_of_toLower_eq_parenthesis hc
    exact ⟨head, hhead, by simp⟩
  · rintro ⟨head, rfl, rfl⟩
    have hlength : (head.map Char.toLower ++ ['(']).length = (head ++ ['(']).length := by simp
    have htext : head ++ '(' :: (args ++ [')']) = head ++ ['('] ++ (args ++ [')']) := by simp
    have hlower : (head ++ ['(']).map Char.toLower = head.map Char.toLower ++ ['('] := by
      rw [List.map_append]
      rfl
    have hlast : (head ++ ['('] ++ (args ++ [')'])).getLast? = some ')' := by
      rw [← List.append_assoc, List.getLast?_concat]
    simp only [arguments?]
    rw [htext, hlength, List.take_left, List.drop_left, hlower, hlast, List.dropLast_concat]
    simp

theorem mem_call_iff_any {name : Text} {arguments : Language Char} {accepts : Text → Bool}
    (haccepts : ∀ args, args ∈ arguments ↔ accepts args = true) :
    t ∈ call name arguments ↔ (arguments? name t).any accepts = true := by
  rw [mem_call_iff, Option.any_eq_true]
  constructor
  · rintro ⟨head, args, hhead, hargs, ht⟩
    exact ⟨args, arguments?_eq_some_iff.2 ⟨head, hhead, ht⟩, (haccepts args).1 hargs⟩
  · rintro ⟨args, hargs, haccept⟩
    obtain ⟨head, hhead, ht⟩ := arguments?_eq_some_iff.1 hargs
    exact ⟨head, args, hhead, (haccepts args).2 haccept, ht⟩

/-- What stands in the parentheses of `rgba`, both ways. -/
theorem call_rgba_eq (channel : Language Char) :
    call "rgba".toList (channels channel) +
        call "rgba".toList (channels channel * {",".toList} * alpha) =
      call "rgba".toList (channels channel + channels channel * {",".toList} * alpha) := by
  simp only [call, mul_add, add_mul]

theorem mem_hexCode_iff : t ∈ hexCode ↔
    ∃ digits, t = '#' :: digits ∧ (digits.length = 3 ∨ digits.length = 6) ∧
      ∀ c ∈ digits, isHexDigit c = true := by
  simp only [hexCode, Text.mem_singleton_mul, Language.mem_add, Text.mem_oneOf_pow]
  constructor
  · rintro ⟨digits, ⟨hlength, hall⟩ | ⟨hlength, hall⟩, rfl⟩
    · exact ⟨digits, rfl, .inl hlength, hall⟩
    · exact ⟨digits, rfl, .inr hlength, hall⟩
  · rintro ⟨digits, rfl, hlength | hlength, hall⟩
    · exact ⟨digits, .inl ⟨hlength, hall⟩, rfl⟩
    · exact ⟨digits, .inr ⟨hlength, hall⟩, rfl⟩

theorem mem_code_iff : t ∈ code channel ↔ isCompactCode t = true := by
  have hrgb : t ∈ call "rgb".toList (channels channel) ↔
      (arguments? "rgb".toList t).any (areChannels false) = true := by
    refine mem_call_iff_any fun args => ?_
    rw [areChannels_iff]
    simp only [Bool.false_eq_true, false_and, or_false]
  have hrgba : t ∈ call "rgba".toList (channels channel + channels channel * {",".toList} * alpha) ↔
      (arguments? "rgba".toList t).any (areChannels true) = true := by
    refine mem_call_iff_any fun args => ?_
    rw [areChannels_iff, Language.mem_add]
    simp only [true_and]
  rw [code, add_assoc, call_rgba_eq, Language.mem_add, Language.mem_add, mem_hexCode_iff, hrgb, hrgba]
  unfold isCompactCode
  split
  · rename_i digits
    have hnone : arguments? "rgb".toList ('#' :: digits) = none := rfl
    have hnone' : arguments? "rgba".toList ('#' :: digits) = none := rfl
    rw [hnone, hnone']
    simp
  · rename_i hother
    have hhash : ¬∃ digits : Text, t = '#' :: digits ∧ (digits.length = 3 ∨ digits.length = 6) ∧
        ∀ c ∈ digits, isHexDigit c = true := by
      rintro ⟨digits, ht, -⟩
      exact hother digits ht
    rw [Bool.or_eq_true, or_iff_right hhash]

/-- A text is a color code if and only if it is a word of the language once its blanks are gone.
An alpha may leave out the digits in front of its point, and the point; a channel of ASCII
characters is the numeral of a number up to 255. -/
theorem isCode_iff_mem_code :
    (∀ raw : Text, isCode raw = true ↔ raw.stripBlanks ∈ code channel) ∧
      alpha = (oneOf Char.isDigit)∗ * (1 + {".".toList}) * numeral ∧
      ∀ t : Text, (∀ c ∈ t, c.toNat < 128) → (t ∈ channel ↔ ∃ n ≤ 255, t = Text.decimal n) :=
  ⟨fun _ => mem_code_iff.symm, alpha_eq, fun _ => mem_channel_iff_mem_byteNumeral⟩

/-- Letters in either case, blanks anywhere, an alpha without digits in front of its point, and a
channel that is no ASCII digit. -/
theorem isCode_iff_mem_code_fraction :
    Text.stripBlanks "RGBA(255, ٣, 0, .5)".toList ∈ code channel ∧
      (∀ c ∈ "255".toList, c.toNat < 128) ∧ "255".toList ∈ channel := by
  obtain ⟨hcode, -, hchannel⟩ := isCode_iff_mem_code
  have hascii : ∀ c ∈ "255".toList, c.toNat < 128 := by simp
  exact ⟨(hcode _).1 (by decide), hascii, (hchannel _ hascii).2 ⟨255, Nat.le_refl _, rfl⟩⟩

end Color

end Tint
