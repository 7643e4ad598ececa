import Tint.Text.Basic
set_option autoImplicit false

/-!
# Bytes

Paths and the arguments of the command are bytes, and these need not be the UTF-8 form of any
text.  `Bytes.decode` reads them as a text all the same: a part that is not well-formed becomes
the replacement character U+FFFD, one for as many bytes as some character starts with, or for a
single byte where none does.

The UTF-8 form of a text is read as the text (`decode_bytes`).  Different bytes may well be read
as one text, but no character is made up other than the replacement character
(`isInfix_of_mem_decode`).
-/

namespace Tint

/-- Bytes in order. -/
abbrev Bytes := List UInt8

namespace Bytes

/-- The UTF-8 form of a string. -/
def ofString (s : String) : Bytes := Text.bytes s.toList

/-- What stands for bytes that are not well-formed. -/
def replacement : Char := '\uFFFD'

/-- The character whose UTF-8 form stands at the front. -/
def char? (bytes : Bytes) : Option Char := (bytes.take 4).toByteArray.utf8DecodeChar? 0

/-- A byte that continues a character. -/
def isContinuation (b : UInt8) : Bool := 0x80 ≤ b && b ≤ 0xBF

/-- Some character of three bytes or four starts with these two. -/
def startsLong (first second : UInt8) : Bool :=
  if first = 0xE0 then 0xA0 ≤ second && second ≤ 0xBF
  else if first = 0xED then 0x80 ≤ second && second ≤ 0x9F
  else if first = 0xF0 then 0x90 ≤ second && second ≤ 0xBF
  else if first = 0xF4 then 0x80 ≤ second && second ≤ 0x8F
  else 0xE1 ≤ first && first ≤ 0xF3 && isContinuation second

/-- The number of bytes at the front that are read as one replacement character, where no
character stands there. -/
def illFormedLength : Bytes → Nat
  | first :: second :: rest =>
    if startsLong first second then if rest.head?.any isContinuation then 3 else 2 else 1
  | _ => 1

/-- Reads bytes of which the first `skip` belong to what has been read before. -/
def decodeFrom : (skip : Nat) → Bytes → Text
  | _, [] => []
  | skip + 1, _ :: rest => decodeFrom skip rest
  | 0, b :: rest =>
    match char? (b :: rest) with
    | some c => c :: decodeFrom (c.utf8Size - 1) rest
    | none => replacement :: decodeFrom (illFormedLength (b :: rest) - 1) rest

/-- Reads bytes as a text. -/
def decode (bytes : Bytes) : Text := decodeFrom 0 bytes

/-! ## What is read -/

theorem char?_append (c : Char) (rest : Bytes) :
    char? (String.utf8EncodeChar c ++ rest) = some c := by
  have hlength : (String.utf8EncodeChar c).length ≤ 4 := by
    rw [String.length_utf8EncodeChar]
    exact Char.utf8Size_le_four c
  rw [char?, List.take_append, List.take_of_length_le hlength, List.toByteArray_append]
  exact ByteArray.utf8DecodeChar?_utf8EncodeChar_append

theorem isPrefix_of_char? {bytes : Bytes} {c : Char} (h : char? bytes = some c) :
    String.utf8EncodeChar c <+: bytes := by
  obtain ⟨rest, hrest⟩ := ByteArray.exists_of_utf8DecodeChar?_eq_some h
  have hfront : bytes.take 4 = String.utf8EncodeChar c ++ rest.data.toList := by
    have hlist := congrArg (·.data.toList) hrest
    simpa using hlist
  exact (hfront ▸ List.prefix_append _ _).trans (List.take_prefix 4 bytes)

theorem decodeFrom_eq (skip : Nat) (bytes : Bytes) :
    decodeFrom skip bytes = decode (bytes.drop skip) := by
  induction bytes generalizing skip with
  | nil => simp [decode, decodeFrom]
  | cons b rest ih =>
    cases skip with
    | zero => rfl
    | succ skip => rw [decodeFrom, ih, List.drop_succ_cons]

theorem decode_append (c : Char) (rest : Bytes) :
    decode (String.utf8EncodeChar c ++ rest) = c :: decode rest := by
  obtain ⟨b, behind, hbytes⟩ := List.exists_cons_of_ne_nil (String.utf8EncodeChar_ne_nil (c := c))
  have hlength : behind.length = c.utf8Size - 1 := by
    rw [← String.length_utf8EncodeChar, hbytes, List.length_cons, Nat.add_sub_cancel]
  have hchar := char?_append c rest
  rw [hbytes, List.cons_append] at hchar ⊢
  rw [decode, decodeFrom, hchar]
  dsimp only
  rw [decodeFrom_eq, ← hlength, List.drop_left]

/-- The UTF-8 form of a text is read as the text. -/
theorem decode_bytes (t : Text) : decode t.bytes = t := by
  induction t with
  | nil => rfl
  | cons c r ih => rw [Text.bytes, List.flatMap_cons, decode_append, ← Text.bytes, ih]

/-- Two texts of one UTF-8 form are the same. -/
theorem bytes_inj {s t : Text} : s.bytes = t.bytes ↔ s = t := by
  refine ⟨fun h => ?_, congrArg Text.bytes⟩
  rw [← decode_bytes s, h, decode_bytes]

/-- A character that is read stands in the bytes, unless it is the replacement character. -/
theorem isInfix_of_mem_decode {bytes : Bytes} {c : Char} (h : c ∈ decode bytes)
    (hc : c ≠ replacement) : String.utf8EncodeChar c <:+: bytes := by
  rw [decode] at h
  generalize 0 = skip at h
  induction bytes generalizing skip with
  | nil =>
    rw [decodeFrom] at h
    cases h
  | cons b rest ih =>
    have hrest {skip : Nat} (h : c ∈ decodeFrom skip rest) :
        String.utf8EncodeChar c <:+: b :: rest := (ih skip h).trans (List.suffix_cons b rest).isInfix
    cases skip with
    | succ skip => exact hrest h
    | zero =>
      rw [decodeFrom] at h
      cases hchar : char? (b :: rest) with
      | none =>
        rw [hchar] at h
        exact hrest ((List.mem_cons.1 h).resolve_left hc)
      | some d =>
        rw [hchar] at h
        rcases List.mem_cons.1 h with rfl | hlater
        · exact (isPrefix_of_char? hchar).isInfix
        · exact hrest hlater

/-- Different bytes may be read as one text. -/
example : decode [0xFF] = [replacement] ∧ decode [0xFE] = [replacement] ∧
    decode [0x61, 0xE2, 0x82, 0xF0, 0x9F, 0x98, 0x80, 0xC0, 0x80, 0xED, 0xA0] =
      ['a', replacement, '😀', replacement, replacement, replacement, replacement] := by
  decide

end Bytes

end Tint
