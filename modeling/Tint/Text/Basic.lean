set_option autoImplicit false

/-!
# Texts

A text is a list of characters.  Offsets that leave the library are counted in bytes of the
UTF-8 form (`Text.size`); inside, a text is taken apart from the front, so that every
definition here recurses on the list or is built from the list operations of core.

* `startsWith` tests what stands at the front;
* `cutAt?` and `cutAtLast?` split at the first and at the last separator, which is dropped;
* `pieces` splits at every separator, and `lines` at every line feed.
-/

namespace Tint

/-- A text, as its characters in order. -/
abbrev Text := List Char

namespace Text

/-- Number of bytes of the UTF-8 form. -/
def size (t : Text) : Nat := t.foldr (fun c n => c.utf8Size + n) 0

@[simp] theorem size_nil : size [] = 0 := rfl

@[simp] theorem size_cons (c : Char) (t : Text) : size (c :: t) = c.utf8Size + size t := rfl

@[simp] theorem size_append (s t : Text) : size (s ++ t) = size s + size t := by
  induction s with
  | nil => simp
  | cons c r ih => rw [List.cons_append, size_cons, ih, size_cons, Nat.add_assoc]

/-- A character takes at least one byte, so only the empty text has no bytes. -/
theorem size_eq_zero_iff {t : Text} : size t = 0 ↔ t = [] := by
  cases t with
  | nil => simp
  | cons c r =>
    have := Char.utf8Size_pos c
    simp only [size_cons, reduceCtorEq, iff_false]
    omega

/-- The UTF-8 form. -/
def bytes (t : Text) : List UInt8 := t.flatMap String.utf8EncodeChar

theorem length_bytes (t : Text) : t.bytes.length = t.size := by
  induction t with
  | nil => rfl
  | cons c r ih =>
    have hcons : bytes (c :: r) = String.utf8EncodeChar c ++ bytes r := List.flatMap_cons
    rw [hcons, List.length_append, ih, String.length_utf8EncodeChar, size_cons]

/-! ## The front of a text -/

/-- The text starts with `front`. -/
def startsWith : (t front : Text) → Bool
  | _, [] => true
  | [], _ :: _ => false
  | c :: t, d :: front => if c = d then startsWith t front else false

@[simp] theorem startsWith_iff {t front : Text} : t.startsWith front = true ↔ front <+: t := by
  induction front generalizing t with
  | nil => simp [startsWith]
  | cons d front ih =>
    cases t with
    | nil => simp [startsWith]
    | cons c t =>
      unfold startsWith
      split
      · rename_i h
        simp [ih, h]
      · rename_i h
        simp [Ne.symm h]

/-! ## Cutting a text at separators -/

/-- The parts before and after the first character that satisfies `p`; that character itself
is dropped.  There is no cut when no character satisfies `p`. -/
def cutAt? (p : Char → Bool) (t : Text) : Option (Text × Text) :=
  match t.dropWhile (fun c => !p c) with
  | [] => none
  | _ :: after => some (t.takeWhile (fun c => !p c), after)

/-- The parts before and after the last character that satisfies `p`. -/
def cutAtLast? (p : Char → Bool) (t : Text) : Option (Text × Text) :=
  (cutAt? p t.reverse).map fun cut => (cut.2.reverse, cut.1.reverse)

theorem cutAt?_nil (p : Char → Bool) : cutAt? p [] = none := rfl

theorem cutAt?_cons_of_pos {p : Char → Bool} {c : Char} (h : p c = true) (t : Text) :
    cutAt? p (c :: t) = some ([], t) := by
  simp [cutAt?, h]

theorem cutAt?_cons_of_neg {p : Char → Bool} {c : Char} (h : p c = false) (t : Text) :
    cutAt? p (c :: t) = (cutAt? p t).map fun cut => (c :: cut.1, cut.2) := by
  unfold cutAt?
  simp only [List.dropWhile_cons, h, Bool.not_false, if_true, List.takeWhile_cons]
  split <;> rfl

/-- There is no cut exactly when no character is a separator. -/
theorem cutAt?_eq_none_iff {p : Char → Bool} {t : Text} :
    cutAt? p t = none ↔ ∀ c ∈ t, p c = false := by
  induction t with
  | nil => simp [cutAt?_nil]
  | cons c r ih =>
    cases h : p c with
    | true => simp [cutAt?_cons_of_pos h, h]
    | false => simp [cutAt?_cons_of_neg h, h, ih]

/-- The parts of a cut are what stands on the two sides of the first separator. -/
theorem cutAt?_eq_some_iff {p : Char → Bool} {t a b : Text} :
    cutAt? p t = some (a, b) ↔ ∃ c, p c = true ∧ t = a ++ c :: b ∧ ∀ x ∈ a, p x = false := by
  induction t generalizing a with
  | nil => simp [cutAt?_nil]
  | cons c r ih =>
    cases h : p c with
    | true =>
      rw [cutAt?_cons_of_pos h]
      constructor
      · intro e
        cases e
        exact ⟨c, h, rfl, by simp⟩
      · rintro ⟨d, _, ht, ha⟩
        cases a with
        | nil =>
          obtain ⟨_, rfl⟩ := List.cons.inj ht
          rfl
        | cons x a =>
          obtain ⟨rfl, _⟩ := List.cons.inj ht
          rw [ha c List.mem_cons_self] at h
          cases h
    | false =>
      rw [cutAt?_cons_of_neg h]
      constructor
      · intro e
        obtain ⟨⟨a', b'⟩, hcut, heq⟩ := Option.map_eq_some_iff.1 e
        cases heq
        obtain ⟨d, hd, rfl, ha⟩ := ih.1 hcut
        refine ⟨d, hd, rfl, fun x hx => ?_⟩
        rcases List.mem_cons.1 hx with rfl | hx
        · exact h
        · exact ha x hx
      · rintro ⟨d, hd, ht, ha⟩
        cases a with
        | nil =>
          obtain ⟨rfl, _⟩ := List.cons.inj ht
          rw [hd] at h
          cases h
        | cons x a =>
          obtain ⟨rfl, hr⟩ := List.cons.inj ht
          rw [ih.2 ⟨d, hd, hr, fun y hy => ha y (List.mem_cons_of_mem _ hy)⟩]
          rfl

/-- There is no last separator exactly when there is no separator. -/
theorem cutAtLast?_eq_none_iff {p : Char → Bool} {t : Text} :
    cutAtLast? p t = none ↔ ∀ c ∈ t, p c = false := by
  simp [cutAtLast?, cutAt?_eq_none_iff]

/-- The parts of a cut at the last separator are what stands on its two sides. -/
theorem cutAtLast?_eq_some_iff {p : Char → Bool} {t a b : Text} :
    cutAtLast? p t = some (a, b) ↔ ∃ c, p c = true ∧ t = a ++ c :: b ∧ ∀ x ∈ b, p x = false := by
  unfold cutAtLast?
  constructor
  · intro e
    obtain ⟨⟨u, v⟩, hcut, heq⟩ := Option.map_eq_some_iff.1 e
    cases heq
    obtain ⟨c, hc, ht, hu⟩ := cutAt?_eq_some_iff.1 hcut
    refine ⟨c, hc, ?_, by simpa using hu⟩
    have := congrArg List.reverse ht
    simpa using this
  · rintro ⟨c, hc, rfl, hb⟩
    have hcut : cutAt? p (a ++ c :: b).reverse = some (b.reverse, a.reverse) :=
      cutAt?_eq_some_iff.2 ⟨c, hc, by simp, by simpa using hb⟩
    rw [hcut]
    simp

/-- Puts one character in front of a list of parts: a separator starts a new part, any other
character extends the first one. -/
def consPart (separator c : Char) : List Text → List Text
  | [] => if c = separator then [[], []] else [[c]]
  | part :: parts => if c = separator then [] :: part :: parts else (c :: part) :: parts

/-- The parts between the occurrences of `separator`: one more part than there are
separators, empty ones included. -/
def pieces (separator : Char) (t : Text) : List Text :=
  t.foldr (consPart separator) [[]]

/-- The lines of a text, cut at line feeds. -/
def lines (t : Text) : List Text := pieces '\n' t

@[simp] theorem pieces_nil (s : Char) : pieces s [] = [[]] := rfl

theorem pieces_ne_nil (s : Char) (t : Text) : pieces s t ≠ [] := by
  cases t with
  | nil => simp
  | cons c r =>
    simp only [pieces, List.foldr_cons]
    cases r.foldr (consPart s) [[]] <;> simp only [consPart] <;> split <;> simp

theorem pieces_cons_separator (s : Char) (t : Text) : pieces s (s :: t) = [] :: pieces s t := by
  have h := pieces_ne_nil s t
  simp only [pieces, List.foldr_cons] at h ⊢
  revert h
  cases t.foldr (consPart s) [[]] <;> simp [consPart]

theorem pieces_cons_of_ne {s c : Char} (h : c ≠ s) (t : Text) :
    ∃ part parts, pieces s t = part :: parts ∧ pieces s (c :: t) = (c :: part) :: parts := by
  cases ht : pieces s t with
  | nil => exact absurd ht (pieces_ne_nil s t)
  | cons part parts =>
    refine ⟨part, parts, rfl, ?_⟩
    simp only [pieces, List.foldr_cons] at ht ⊢
    simp [ht, consPart, h]

/-- The parts of two texts joined by a separator are the parts of the one, then those of the
other. -/
theorem pieces_append_separator (s : Char) (a b : Text) :
    pieces s (a ++ s :: b) = pieces s a ++ pieces s b := by
  induction a with
  | nil => simp [pieces_cons_separator]
  | cons c r ih =>
    by_cases hc : c = s
    · subst hc
      simp [pieces_cons_separator, ih]
    · obtain ⟨part, parts, h₁, h₂⟩ := pieces_cons_of_ne hc r
      obtain ⟨part', parts', h₁', h₂'⟩ := pieces_cons_of_ne hc (r ++ s :: b)
      rw [ih, h₁, List.cons_append, List.cons.injEq] at h₁'
      obtain ⟨rfl, rfl⟩ := h₁'
      rw [List.cons_append, h₂', h₂, List.cons_append]

end Text

end Tint
