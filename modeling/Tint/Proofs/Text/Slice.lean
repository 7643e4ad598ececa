import Mathlib.Data.List.Induction
import Tint.Text.Offset
set_option autoImplicit false

/-!
# Slices of a text

A slice is given by two offsets, in bytes.  It exists only when both of them are character
boundaries of the text and the first is not behind the second (`IsSlice`); in a loop over a text
this is what every access to a part of the text has to keep.

The second half is about tests of single bytes.  A class of ASCII characters can be recognised
byte by byte (`asciiByte`): no byte of a longer character passes such a test, so a walk over
bytes never stops inside a character.
-/

namespace Tint.Text

/-- `s` stands in `text` from the offset `a` to the offset `b`. -/
def IsSlice (text : Text) (a b : Nat) (s : Text) : Prop :=
  ∃ before after, text = before ++ s ++ after ∧ size before = a ∧ a + size s = b

theorem length_le_size (t : Text) : t.length ≤ size t := by
  induction t with
  | nil => simp
  | cons c r ih =>
    have := Char.utf8Size_pos c
    simp only [List.length_cons, size_cons]
    omega

theorem size_pos {t : Text} (h : t ≠ []) : 0 < size t := by
  have hne : size t ≠ 0 := fun h0 => h (size_eq_zero_iff.1 h0)
  omega

/-- Two cuts of one text at the same offset are the same cut. -/
theorem append_inj_of_size {a b r s : Text} (h : a ++ r = b ++ s) (hsize : size a = size b) :
    a = b ∧ r = s := by
  have hr := dropBytes?_size_append a r
  rw [h, hsize, dropBytes?_size_append] at hr
  obtain rfl := Option.some.inj hr
  exact ⟨List.append_cancel_right h, rfl⟩

theorem size_le_of_isPrefix {s t : Text} (h : s <+: t) : size s ≤ size t := by
  obtain ⟨after, rfl⟩ := h
  rw [size_append]
  omega

/-- Of two fronts of one text, the one of fewer bytes is a front of the other. -/
theorem isPrefix_of_size_le {a b t : Text} (ha : a <+: t) (hb : b <+: t)
    (hle : size a ≤ size b) : a <+: b := by
  rcases List.prefix_or_prefix_of_prefix ha hb with hab | ⟨x, rfl⟩
  · exact hab
  · rw [size_append] at hle
    have hx : x = [] := size_eq_zero_iff.1 (by omega)
    simp [hx]

/-- No cut of a text lies inside a character. -/
theorem size_add_le_of_append_eq {a r b s : Text} {c : Char} (h : a ++ c :: r = b ++ s)
    (hlt : size a < size b) : size a + c.utf8Size ≤ size b := by
  have hc : a ++ [c] <+: b ++ s := ⟨r, by rw [← h, List.append_assoc]; rfl⟩
  rcases Nat.lt_or_ge (size b) (size a + c.utf8Size) with hinside | hge
  · have hb : b <+: a ++ [c] := by
      refine isPrefix_of_size_le ⟨s, rfl⟩ hc ?_
      rw [size_append, size_cons, size_nil]
      omega
    rcases List.prefix_concat_iff.1 hb with rfl | hb
    · rw [size_append, size_cons, size_nil] at hinside
      omega
    · have := size_le_of_isPrefix hb
      omega
  · exact hge

/-- What stands at the front of a text and is not empty starts with its first character. -/
theorem exists_cons_of_isPrefix {s r : Text} {c : Char} (hne : s ≠ []) (h : s <+: c :: r) :
    ∃ u after, s = c :: u ∧ r = u ++ after := by
  obtain ⟨d, u, rfl⟩ := List.exists_cons_of_ne_nil hne
  obtain ⟨after, hafter⟩ := h
  obtain ⟨rfl, hr⟩ := List.cons.inj hafter
  exact ⟨u, after, rfl, hr.symm⟩

theorem getLast?_cons_eq_or (c : Char) (u : Text) :
    (c :: u).getLast? = u.getLast?.or (some c) := by
  rw [List.getLast?_cons]
  cases u.getLast? <;> rfl

namespace IsSlice

variable {text s : Text} {a b : Nat}

theorem le_size (h : IsSlice text a b s) : b ≤ size text := by
  obtain ⟨before, after, rfl, rfl, rfl⟩ := h
  simp only [size_append]
  omega

theorem lt_of_ne_nil (h : IsSlice text a b s) (hs : s ≠ []) : a < b := by
  obtain ⟨_, _, _, _, rfl⟩ := h
  have := size_pos hs
  omega

theorem of_dropBytes? {rest : Text} (h : dropBytes? a text = some rest) (hs : s <+: rest) :
    IsSlice text a (a + size s) s := by
  obtain ⟨before, rfl, hbefore⟩ := dropBytes?_eq_some_iff.1 h
  obtain ⟨after, rfl⟩ := hs
  exact ⟨before, after, by simp, hbefore, rfl⟩

end IsSlice

/-! ## Bytes of a class of ASCII characters -/

/-- The byte is that of a character of the class. -/
def asciiByte (p : Char → Bool) (b : UInt8) : Bool := b < 128 && p (Char.ofNat b.toNat)

/-- Every character of the class is an ASCII character. -/
def IsAscii (p : Char → Bool) : Prop := ∀ c, p c = true → c.toNat < 128

theorem IsAscii.or {p q : Char → Bool} (hp : IsAscii p) (hq : IsAscii q) :
    IsAscii fun c => p c || q c := by
  intro c h
  rcases Bool.or_eq_true_iff.1 h with h | h
  · exact hp c h
  · exact hq c h

theorem isAscii_beq {d : Char} (hd : d.toNat < 128) : IsAscii (· == d) := by
  intro c h
  rw [eq_of_beq h]
  exact hd

theorem isAscii_range {last : Char} (hlast : last.toNat < 128) (first : Char) :
    IsAscii fun c => first ≤ c && c ≤ last := by
  intro c h
  obtain ⟨-, hle⟩ := Bool.and_eq_true_iff.1 h
  exact Nat.lt_of_le_of_lt (UInt32.le_iff_toNat_le.1 (of_decide_eq_true hle)) hlast

theorem isAscii_isDigit : IsAscii Char.isDigit := by
  intro c h
  obtain ⟨-, hle⟩ := Bool.and_eq_true_iff.1 h
  have hle := UInt32.le_iff_toNat_le.1 (of_decide_eq_true hle)
  exact Nat.lt_of_le_of_lt hle (by decide)

theorem isAscii_isAlpha : IsAscii Char.isAlpha := by
  intro c h
  rcases Bool.or_eq_true_iff.1 h with h | h
  · obtain ⟨-, hle⟩ := of_decide_eq_true h
    exact Nat.lt_of_le_of_lt (UInt32.le_iff_toNat_le.1 hle) (by decide)
  · obtain ⟨-, hle⟩ := Bool.and_eq_true_iff.1 h
    have hle := UInt32.le_iff_toNat_le.1 (of_decide_eq_true hle)
    exact Nat.lt_of_le_of_lt hle (by decide)

@[simp] theorem bytes_nil : bytes [] = [] := rfl

@[simp] theorem bytes_cons (c : Char) (t : Text) :
    bytes (c :: t) = String.utf8EncodeChar c ++ bytes t := by
  simp [bytes]

@[simp] theorem bytes_append (s t : Text) : bytes (s ++ t) = bytes s ++ bytes t := by
  simp [bytes]

theorem utf8EncodeChar_of_lt {c : Char} (h : c.toNat < 128) :
    String.utf8EncodeChar c = [UInt8.ofNat c.toNat] := by
  have hv : c.val.toNat ≤ 0x7f := Nat.le_of_lt_succ h
  unfold String.utf8EncodeChar
  simp only [hv, if_true]
  rfl

/-- Every byte of a longer character has its highest bit set. -/
theorem le_of_mem_utf8EncodeChar {c : Char} (h : 128 ≤ c.toNat) {b : UInt8}
    (hb : b ∈ String.utf8EncodeChar c) : 128 ≤ b.toNat := by
  have hv : ¬ c.val.toNat ≤ 0x7f := Nat.not_le_of_gt h
  unfold String.utf8EncodeChar at hb
  simp only [hv, if_false] at hb
  split at hb
  · simp only [List.mem_cons, List.not_mem_nil, or_false] at hb
    rcases hb with rfl | rfl <;> rw [UInt8.toNat_ofNat'] <;> omega
  · split at hb
    · simp only [List.mem_cons, List.not_mem_nil, or_false] at hb
      rcases hb with rfl | rfl | rfl <;> rw [UInt8.toNat_ofNat'] <;> omega
    · simp only [List.mem_cons, List.not_mem_nil, or_false] at hb
      rcases hb with rfl | rfl | rfl | rfl <;> rw [UInt8.toNat_ofNat'] <;> omega

variable {p : Char → Bool}

theorem utf8EncodeChar_of_pos (hp : IsAscii p) {c : Char} (h : p c = true) :
    ∃ b, String.utf8EncodeChar c = [b] ∧ asciiByte p b = true := by
  have hc := hp c h
  refine ⟨_, utf8EncodeChar_of_lt hc, ?_⟩
  have hb : (UInt8.ofNat c.toNat).toNat = c.toNat := by
    rw [UInt8.toNat_ofNat']
    omega
  simp only [asciiByte, hb, Char.ofNat_toNat, h, Bool.and_true, decide_eq_true_eq]
  rw [UInt8.lt_iff_toNat_lt, hb]
  exact hc

theorem asciiByte_of_neg {c : Char} (h : p c = false) {b : UInt8}
    (hb : b ∈ String.utf8EncodeChar c) : asciiByte p b = false := by
  rcases Nat.lt_or_ge c.toNat 128 with hc | hc
  · rw [utf8EncodeChar_of_lt hc, List.mem_singleton] at hb
    subst hb
    have hb : (UInt8.ofNat c.toNat).toNat = c.toNat := by
      rw [UInt8.toNat_ofNat']
      omega
    simp [asciiByte, hb, h]
  · have hlt : ¬ b < 128 := by
      have := le_of_mem_utf8EncodeChar hc hb
      rw [UInt8.lt_iff_toNat_lt]
      exact Nat.not_lt_of_ge this
    simp [asciiByte, hlt]

/-- A text of such characters has as many bytes as characters. -/
theorem size_eq_length (hp : IsAscii p) {t : Text} (h : ∀ c ∈ t, p c = true) :
    size t = t.length := by
  induction t with
  | nil => rfl
  | cons c r ih =>
    obtain ⟨b, hb, _⟩ := utf8EncodeChar_of_pos hp (h c List.mem_cons_self)
    have hc : c.utf8Size = 1 := by rw [← String.length_utf8EncodeChar, hb]; rfl
    rw [size_cons, hc, ih fun d hd => h d (List.mem_cons_of_mem _ hd), List.length_cons]
    omega

theorem takeWhile_bytes (hp : IsAscii p) (t : Text) :
    (bytes t).takeWhile (asciiByte p) = bytes (t.takeWhile p) := by
  induction t with
  | nil => rfl
  | cons c r ih =>
    cases h : p c with
    | true =>
      obtain ⟨b, hb, hpb⟩ := utf8EncodeChar_of_pos hp h
      rw [bytes_cons, hb, List.takeWhile_cons_of_pos h, bytes_cons, hb, List.singleton_append,
        List.takeWhile_cons_of_pos hpb, ih, List.singleton_append]
    | false =>
      have hne := String.utf8EncodeChar_ne_nil (c := c)
      obtain ⟨b, bs, hb⟩ := List.exists_cons_of_ne_nil hne
      have hpb : asciiByte p b = false := asciiByte_of_neg h (hb ▸ List.mem_cons_self)
      rw [bytes_cons, hb, List.takeWhile_cons_of_neg (by simp [h]), List.cons_append,
        List.takeWhile_cons_of_neg (by simp [hpb])]
      rfl

/-- The last byte before an offset tells whether the character before it is of the class. -/
theorem any_getLast?_bytes (hp : IsAscii p) (t : Text) :
    (bytes t).getLast?.any (asciiByte p) = t.getLast?.any p := by
  rcases List.eq_nil_or_concat t with rfl | ⟨r, c, rfl⟩
  · rfl
  · have hne := String.utf8EncodeChar_ne_nil (c := c)
    obtain ⟨bs, b, hb⟩ := (List.eq_nil_or_concat (String.utf8EncodeChar c)).resolve_left hne
    have hmem : b ∈ String.utf8EncodeChar c := by simp [hb]
    rw [List.concat_eq_append] at hb ⊢
    rw [bytes_append, bytes_cons, bytes_nil, List.append_nil, hb, ← List.append_assoc,
      List.getLast?_concat, List.getLast?_concat]
    cases h : p c with
    | true =>
      obtain ⟨b', hb', hpb⟩ := utf8EncodeChar_of_pos hp h
      rw [hb', List.mem_singleton] at hmem
      simp [hmem, hpb, h]
    | false => simp [asciiByte_of_neg h hmem, h]

/-- There is a byte before an offset that is not the first one, and it tells as much. -/
theorem exists_byte_before (hp : IsAscii p) {before : Text} (h : 0 < size before) (rest : Text) :
    ∃ b, (bytes (before ++ rest))[size before - 1]? = some b ∧
      asciiByte p b = before.getLast?.any p := by
  have hi : size before - 1 < (bytes before).length := by
    rw [length_bytes]
    omega
  have hget : (bytes (before ++ rest))[size before - 1]? =
      some (bytes before)[size before - 1] := by
    rw [bytes_append, List.getElem?_append_left hi, List.getElem?_eq_getElem hi]
  refine ⟨_, hget, ?_⟩
  rw [← any_getLast?_bytes hp, List.getLast?_eq_getElem?, length_bytes,
    List.getElem?_eq_getElem hi, Option.any_some]

/-- All bytes of a text of such characters tell as much, wherever it stands. -/
theorem exists_byte_within (hp : IsAscii p) {before word : Text} (hword : ∀ c ∈ word, p c = true)
    (after : Text) {i : Nat} (hle : size before ≤ i) (hlt : i < size before + size word) :
    ∃ b, (bytes (before ++ word ++ after))[i]? = some b ∧ asciiByte p b = true := by
  have hi : i - size before < (bytes word).length := by
    rw [length_bytes]
    omega
  have hget : (bytes (before ++ word ++ after))[i]? = some (bytes word)[i - size before] := by
    rw [List.append_assoc, bytes_append, bytes_append,
      List.getElem?_append_right (by rwa [length_bytes]), length_bytes,
      List.getElem?_append_left hi, List.getElem?_eq_getElem hi]
  refine ⟨_, hget, ?_⟩
  obtain ⟨c, hc, hmem⟩ := List.mem_flatMap.1 (List.getElem_mem hi)
  obtain ⟨b, hb, hpb⟩ := utf8EncodeChar_of_pos hp (hword c hc)
  rw [hb, List.mem_singleton] at hmem
  rwa [hmem]

/-! ## Walking back -/

/-- Where the run of bytes of the class starts that ends before the offset; nothing when a byte
outside of the text would be read. -/
def runStart? (p : Char → Bool) (bs : List UInt8) : (offset : Nat) → Option Nat
  | 0 => some 0
  | i + 1 => bs[i]?.bind fun b => if asciiByte p b then runStart? p bs i else some (i + 1)

/-- The walk stays inside the text and ends in front of the last characters of the class. -/
theorem runStart?_eq (hp : IsAscii p) {before word after : Text}
    (hword : ∀ c ∈ word, p c = true) (hbefore : before.getLast?.any p = false) :
    runStart? p (bytes (before ++ word ++ after)) (size before + size word) =
      some (size before) := by
  induction word using List.reverseRecOn generalizing after with
  | nil =>
    rw [List.append_nil, size_nil, Nat.add_zero]
    cases hsize : size before with
    | zero => rfl
    | succ i =>
      obtain ⟨b, hget, hpb⟩ := exists_byte_before hp (by omega : 0 < size before) after
      rw [hsize, Nat.add_sub_cancel] at hget
      rw [runStart?, hget, Option.bind_some, hpb, hbefore]
      rfl
  | append_singleton word c ih =>
    obtain ⟨b, hb, hpb⟩ := utf8EncodeChar_of_pos hp (hword c (by simp))
    have hc : c.utf8Size = 1 := by rw [← String.length_utf8EncodeChar, hb]; rfl
    have hsize : size before + size (word ++ [c]) = size before + size word + 1 := by
      rw [size_append, size_cons, size_nil, hc]
      omega
    have htext : before ++ (word ++ [c]) ++ after = before ++ word ++ (c :: after) := by simp
    have hget : (bytes (before ++ word ++ (c :: after)))[size before + size word]? = some b := by
      have hlen : (bytes (before ++ word)).length = size before + size word := by
        rw [length_bytes, size_append]
      rw [bytes_append, bytes_cons, hb, List.getElem?_append_right (Nat.le_of_eq hlen), hlen,
        Nat.sub_self]
      rfl
    rw [hsize, htext, runStart?, hget, Option.bind_some, if_pos hpb]
    exact ih (fun d hd => hword d (List.mem_append_left _ hd))

end Tint.Text
