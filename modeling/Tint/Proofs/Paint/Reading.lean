import Tint.Paint.Painter
import Tint.Proofs.Text.Slice
set_option autoImplicit false

/-!
# Reading a text by regions

How a text without entry matches is meant to be read, from the outside in and without a state.  A
reader says which part starts at a place (`topItem`, `docItem`, `weakItem`); a region is such a
part, and what is between its delimiters is read by the reader of its tier.

A region ends with the leftmost occurrence of its closing delimiter behind the opening one
(`occurrence?`), where an occurrence does not count when it starts strictly inside a part of the
body (`isInside`): a painted doc token, or a strong region with its delimiters.  In the body of a
strong region nothing hides the delimiter.  Without such an occurrence the region takes the rest
of the text, and is closed all the same.
-/

namespace Tint

/-- A part of a text, and what it is painted as. -/
structure Part where
  source : Text
  painting : Painting
  deriving DecidableEq, Repr

namespace Part

def char (c : Char) : Part := ⟨[c], [.char c]⟩

def word (color w : Text) : Part := ⟨w, [.word color w]⟩

end Part

namespace Reading

/-- What parts are painted as, one after another. -/
def painting (parts : List Part) : Painting := parts.flatMap Part.painting

/-- The parts of a text.  The reader gets the character before a part, its first character and
what follows; the next `skip` characters belong to a part that has been read. -/
def partsFrom (next : Option Char → Char → Text → Part) :
    Option Char → (skip : Nat) → Text → List Part
  | _, _, [] => []
  | _, skip + 1, c :: r => partsFrom next (some c) skip r
  | previous, 0, c :: r =>
    next previous c r :: partsFrom next (some c) ((next previous c r).source.length - 1) r

/-- The offset lies in one of the parts, but not at its start. -/
def isInside : List Part → (offset : Nat) → Bool
  | [], _ => false
  | part :: parts, i =>
    if i < part.source.length then 0 < i else isInside parts (i - part.source.length)

/-- The parts before an offset. -/
def upTo : List Part → (offset : Nat) → List Part
  | [], _ => []
  | part :: parts, i => if i = 0 then [] else part :: upTo parts (i - part.source.length)

/-- Where the leftmost occurrence of a delimiter starts that is not hidden. -/
def occurrence? (right : Text) (hidden : Nat → Bool) (rest : Text) : Option Nat :=
  (List.range rest.length).find? fun i => Text.startsWith (rest.drop i) right && !hidden i

/-- A region whose body has the given parts and ends at the given offset, if it ends. -/
def between (color : Text) (e : Enclosure) (rest : Text) (body : List Part) : Option Nat → Part
  | some i =>
    ⟨e.left ++ rest.take i ++ e.right,
      .opening color e :: painting (upTo body i) ++ [.closing e]⟩
  | none => ⟨e.left ++ rest, .opening color e :: painting body ++ [.closing e]⟩

variable (rules : RuleSet)

/-- The first rule of a tier in declaration order whose opening delimiter stands here. -/
def opener? (tier : Tier) (rest : Text) : Option Enclosure :=
  (rules.enclosures tier).rules.find? fun e => rest.startsWith e.left

/-- The maximal word that stands here, if it has a color. -/
def word? (color? : Text → Option Text) (previous : Option Char) (rest : Text) : Option Part :=
  (Word.at? previous rest).bind fun w => (color? w).map fun color => .word color w

/-- A strong region with the text behind its opening delimiter. -/
def strongRegion (e : Enclosure) (rest : Text) : Part :=
  between (rules.delimiterColor e.name) e rest (rest.map .char)
    (occurrence? e.right (fun _ => false) rest)

def docItem (previous : Option Char) (c : Char) (r : Text) : Part :=
  (word? rules.docToken? previous (c :: r)).getD (.char c)

/-- A doc region with the text behind its opening delimiter. -/
def docRegion (e : Enclosure) (rest : Text) : Part :=
  let body := partsFrom (docItem rules) e.left.getLast? 0 rest
  between (rules.delimiterColor e.name) e rest body (occurrence? e.right (isInside body) rest)

def weakItem (_ : Option Char) (c : Char) (r : Text) : Part :=
  ((opener? rules .strong (c :: r)).map fun e =>
    strongRegion rules e ((c :: r).drop e.left.length)).getD (.char c)

/-- A weak region with the text behind its opening delimiter. -/
def weakRegion (e : Enclosure) (rest : Text) : Part :=
  let body := partsFrom (weakItem rules) e.left.getLast? 0 rest
  between (rules.delimiterColor e.name) e rest body (occurrence? e.right (isInside body) rest)

/-- A doc, a strong or a weak region, in this order, or a keyword, or a character. -/
def topItem (previous : Option Char) (c : Char) (r : Text) : Part :=
  let region? (tier : Tier) (read : Enclosure → Text → Part) : Option Part :=
    (opener? rules tier (c :: r)).map fun e => read e ((c :: r).drop e.left.length)
  (region? .doc (docRegion rules) <|> region? .strong (strongRegion rules)
    <|> region? .weak (weakRegion rules)
    <|> word? rules.keyword? previous (c :: r)).getD (.char c)

/-- The painting of a text without entry matches. -/
def top (text : Text) : Painting := painting (partsFrom (topItem rules) none 0 text)

variable {next : Option Char → Char → Text → Part} {previous : Option Char} {part : Part}
  {parts : List Part} {right rest : Text}

/-! ## Parts, one after another -/

@[simp] theorem painting_cons (part : Part) (parts : List Part) :
    painting (part :: parts) = part.painting ++ painting parts := by
  simp [painting]

/-- Skipping the rest of a part is going on behind it. -/
theorem partsFrom_append (u r : Text) (previous : Option Char) :
    partsFrom next previous u.length (u ++ r) =
      partsFrom next (u.getLast?.or previous) 0 r := by
  induction u generalizing previous with
  | nil => rfl
  | cons c u ih =>
    rw [List.cons_append, List.length_cons, partsFrom, ih, Text.getLast?_cons_eq_or,
      Option.or_assoc, Option.some_or]

theorem partsFrom_cons {c : Char} {r : Text} (hne : (next previous c r).source ≠ [])
    (hfront : (next previous c r).source <+: c :: r) :
    partsFrom next previous 0 (c :: r) = next previous c r ::
      partsFrom next (next previous c r).source.getLast? 0
        ((c :: r).drop (next previous c r).source.length) := by
  rw [partsFrom]
  obtain ⟨u, after, hu, hr⟩ := Text.exists_cons_of_isPrefix hne hfront
  rw [hu, hr, List.length_cons, Nat.add_sub_cancel, partsFrom_append, List.drop_succ_cons,
    List.drop_left, Text.getLast?_cons_eq_or]

/-! ## Where a region ends -/

@[simp] theorem isInside_zero (parts : List Part) : isInside parts 0 = false := by
  induction parts with
  | nil => rfl
  | cons part parts ih =>
    rw [isInside, Nat.zero_sub, ih]
    simp

theorem isInside_length_add (part : Part) (parts : List Part) (i : Nat) :
    isInside (part :: parts) (part.source.length + i) = isInside parts i := by
  have hge : ¬ part.source.length + i < part.source.length := by omega
  rw [isInside, if_neg hge, Nat.add_sub_cancel_left]

/-- Nothing is inside of a single character. -/
theorem isInside_map_char (t : Text) (i : Nat) : isInside (t.map .char) i = false := by
  induction t generalizing i with
  | nil => rfl
  | cons c t ih =>
    rw [List.map_cons, isInside, ih]
    cases i with
    | zero => rfl
    | succ i => rfl

@[simp] theorem upTo_zero (parts : List Part) : upTo parts 0 = [] := by
  cases parts <;> rfl

theorem upTo_length_add (hne : part.source ≠ []) (parts : List Part) (i : Nat) :
    upTo (part :: parts) (part.source.length + i) = part :: upTo parts i := by
  have hpos := List.length_pos_iff.2 hne
  have h0 : ¬ part.source.length + i = 0 := by omega
  rw [upTo, if_neg h0, Nat.add_sub_cancel_left]

theorem occurrence?_eq_some_iff {hidden : Nat → Bool} {i : Nat} :
    occurrence? right hidden rest = some i ↔ i < rest.length ∧ right <+: rest.drop i ∧
      hidden i = false ∧ ∀ j < i, right <+: rest.drop j → hidden j = true := by
  unfold occurrence?
  rw [List.find?_range_eq_some, List.mem_range, Bool.and_eq_true_iff, Text.startsWith_iff,
    Bool.not_eq_true']
  constructor
  · rintro ⟨⟨hstands, hfree⟩, hlt, hbefore⟩
    refine ⟨hlt, hstands, hfree, ?_⟩
    intro j hj hright
    have hnot := hbefore j hj
    rw [Text.startsWith_iff.2 hright] at hnot
    simpa using hnot
  · rintro ⟨hlt, hstands, hfree, hbefore⟩
    refine ⟨⟨hstands, hfree⟩, hlt, ?_⟩
    intro j hj
    rw [Bool.not_eq_true', Bool.and_eq_false_iff]
    cases hright : Text.startsWith (rest.drop j) right with
    | false => exact .inl rfl
    | true => exact .inr (by rw [hbefore j hj (Text.startsWith_iff.1 hright)]; rfl)

theorem occurrence?_eq_zero {hidden : Nat → Bool} (hright : right ≠ []) (h : right <+: rest)
    (h0 : hidden 0 = false) : occurrence? right hidden rest = some 0 := by
  have hpos : 0 < rest.length := Nat.lt_of_lt_of_le (List.length_pos_iff.2 hright) h.length_le
  apply occurrence?_eq_some_iff.2
  refine ⟨hpos, h, h0, ?_⟩
  intro j hj
  omega

/-- An occurrence behind a part is one of the rest. -/
theorem occurrence?_append (hstart : ¬ right <+: part.source ++ rest) :
    occurrence? right (isInside (part :: parts)) (part.source ++ rest) =
      (occurrence? right (isInside parts) rest).map (part.source.length + ·) := by
  let counts (i : Nat) : Bool :=
    Text.startsWith ((part.source ++ rest).drop i) right && !isInside (part :: parts) i
  have hbefore : (List.range part.source.length).find? counts = none := by
    apply List.find?_eq_none.2
    intro i hi hcounts
    have hlt := List.mem_range.1 hi
    obtain ⟨hstands, hfree⟩ := Bool.and_eq_true_iff.1 hcounts
    cases i with
    | zero => exact hstart (Text.startsWith_iff.1 hstands)
    | succ i =>
      rw [isInside, if_pos hlt] at hfree
      simp at hfree
  have hbehind (i : Nat) : counts (part.source.length + i) =
      (Text.startsWith (rest.drop i) right && !isInside parts i) := by
    unfold counts
    rw [isInside_length_add, List.drop_length_add_append]
  change (List.range (part.source ++ rest).length).find? counts = _
  rw [List.length_append, List.range_add, List.find?_append, hbefore, Option.none_or,
    List.find?_map]
  congr 2
  funext i
  exact hbehind i

end Reading

end Tint
