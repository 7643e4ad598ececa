import Tint.Markup
import Tint.Proofs.Rules.WellFormed
set_option autoImplicit false

/-!
# Reading markup back

HTML is read into tags and the characters between them (`Markup.tokens`), without regard to who
wrote it.  Three things are asked of the result:

* the characters between the tags are escaped (`IsEscaped`);
* `unescape` gives back what was escaped, in one pass (`unescape_escape`);
* the tags are those of spans, each one ended, and no more than so many of them open at a time
  (`Nests`).

Escaped text and the two tags of a span with a plain color are read as what they are
(`tokens_escape_append`, `tokens_openSpan_append`, `tokens_closeSpan_append`).  A color with a
closing angle bracket in it would end its tag too early.
-/

namespace Tint.Markup

open Color (IsPlain)

/-- A tag, from `<` to the next `>`, or a character outside of all tags. -/
inductive Token where
  | tag (text : Text)
  | char (c : Char)
  deriving DecidableEq, Repr

/-- The tokens of a text, in front of which a part of a tag may have been read.  A tag that does
not end is none. -/
def tokensFrom : Option Text → Text → List Token
  | none, [] => []
  | some tag, [] => tag.map .char
  | none, c :: r => if c = '<' then tokensFrom (some [c]) r else .char c :: tokensFrom none r
  | some tag, c :: r =>
    if c = '>' then .tag (tag ++ [c]) :: tokensFrom none r else tokensFrom (some (tag ++ [c])) r

def tokens (html : Text) : List Token := tokensFrom none html

/-- The tags, in order. -/
def tags (html : Text) : List Text :=
  (tokens html).filterMap fun
    | .tag t => some t
    | .char _ => none

/-- The tag starts or ends a span. -/
def isSpanTag (tag : Text) : Bool := tag.startsWith "<span ".toList || tag == closeSpan

/-- The text without the tags of spans. -/
def stripTags (html : Text) : Text :=
  (tokens html).flatMap fun
    | .tag t => if isSpanTag t then [] else t
    | .char c => [c]

/-- Replaces the three references by what they stand for. -/
def unescape : Text → Text
  | '&' :: 'a' :: 'm' :: 'p' :: ';' :: r => '&' :: unescape r
  | '&' :: 'l' :: 't' :: ';' :: r => '<' :: unescape r
  | '&' :: 'g' :: 't' :: ';' :: r => '>' :: unescape r
  | c :: r => c :: unescape r
  | [] => []

/-- There is no angle bracket, and every ampersand starts one of the three references. -/
def IsEscaped (t : Text) : Prop :=
  '<' ∉ t ∧ '>' ∉ t ∧ ∀ before after, t = before ++ '&' :: after →
    ∃ reference ∈ ["amp;".toList, "lt;".toList, "gt;".toList], reference <+: after

/-- Tags of spans with plain colors that lead from `open'` open spans to the last number, with
never more than `limit` open. -/
inductive Nests (limit : Nat) : Nat → List Text → Nat → Prop where
  | nil (n : Nat) : Nests limit n [] n
  | start {n m : Nat} {color : Text} {rest : List Text} : IsPlain color → n < limit →
      Nests limit (n + 1) rest m → Nests limit n (openSpan color :: rest) m
  | stop {n m : Nat} {rest : List Text} : Nests limit n rest m →
      Nests limit (n + 1) (closeSpan :: rest) m

theorem Nests.append {limit n m k : Nat} {a b : List Text} (ha : Nests limit n a m)
    (hb : Nests limit m b k) : Nests limit n (a ++ b) k := by
  induction ha with
  | nil n => exact hb
  | start hcolor hlt _ ih => exact .start hcolor hlt (ih hb)
  | stop _ ih => exact .stop (ih hb)

/-! ## Escaped text -/

/-- A character stays as it is, or becomes an ampersand and a reference. -/
theorem escapeChar_cases (c : Char) :
    (escapeChar c = [c] ∧ c ≠ '&' ∧ c ≠ '<' ∧ c ≠ '>') ∨
      ∃ reference ∈ ["amp;".toList, "lt;".toList, "gt;".toList],
        escapeChar c = '&' :: reference := by
  unfold escapeChar
  by_cases hamp : c = '&'
  · rw [if_pos hamp]
    exact Or.inr ⟨"amp;".toList, by simp, rfl⟩
  · rw [if_neg hamp]
    by_cases hlt : c = '<'
    · rw [if_pos hlt]
      exact Or.inr ⟨"lt;".toList, by simp, rfl⟩
    · rw [if_neg hlt]
      by_cases hgt : c = '>'
      · rw [if_pos hgt]
        exact Or.inr ⟨"gt;".toList, by simp, rfl⟩
      · rw [if_neg hgt]
        exact Or.inl ⟨rfl, hamp, hlt, hgt⟩

theorem unescape_cons {c : Char} (h : c ≠ '&') (r : Text) :
    unescape (c :: r) = c :: unescape r := by
  rw [unescape]
  all_goals
    intros
    simp_all

theorem unescape_escapeChar_append (c : Char) (r : Text) :
    unescape (escapeChar c ++ r) = c :: unescape r := by
  unfold escapeChar
  by_cases hamp : c = '&'
  · subst hamp
    rfl
  · rw [if_neg hamp]
    by_cases hlt : c = '<'
    · subst hlt
      rfl
    · rw [if_neg hlt]
      by_cases hgt : c = '>'
      · subst hgt
        rfl
      · rw [if_neg hgt]
        exact unescape_cons hamp r

theorem unescape_escape (t : Text) : unescape (escape t) = t := by
  induction t with
  | nil => rfl
  | cons c r ih => rw [escape_cons, unescape_escapeChar_append, ih]

theorem isEscaped_escape (t : Text) : IsEscaped (escape t) := by
  refine ⟨not_mem_escape (Or.inl rfl) t, not_mem_escape (Or.inr rfl) t, ?_⟩
  induction t with
  | nil =>
    intro before after h
    exact absurd h.symm (by simp)
  | cons c r ih =>
    intro before after h
    rw [escape_cons] at h
    rcases escapeChar_cases c with ⟨hc, hamp, -, -⟩ | ⟨reference, href, hc⟩
    · rw [hc, List.singleton_append] at h
      cases before with
      | nil => exact absurd (List.cons.inj h).1 hamp
      | cons d before => exact ih before after (List.cons.inj h).2
    · rw [hc, List.cons_append] at h
      cases before with
      | nil => exact ⟨reference, href, escape r, (List.cons.inj h).2⟩
      | cons d before =>
        -- the ampersand stands behind the reference, which holds none itself
        have htail := (List.cons.inj h).2
        have hnone : '&' ∉ reference := by
          simp only [List.mem_cons, List.not_mem_nil, or_false] at href
          rcases href with rfl | rfl | rfl <;> decide
        rcases List.append_eq_append_iff.1 htail with ⟨u, hu, hr⟩ | ⟨u, hu, hr⟩
        · exact ih u after hr
        · cases u with
          | nil => exact ih [] after hr.symm
          | cons e u =>
            obtain ⟨rfl, -⟩ := List.cons.inj hr
            exact absurd (by rw [hu]; simp) hnone

/-! ## Tokens of what is written -/

theorem tokensFrom_append_of_notMem {t : Text} (hlt : '<' ∉ t) (r : Text) :
    tokensFrom none (t ++ r) = t.map .char ++ tokensFrom none r := by
  induction t with
  | nil => rfl
  | cons c t ih =>
    rw [List.mem_cons, not_or] at hlt
    rw [List.cons_append, tokensFrom, if_neg (Ne.symm hlt.1), ih hlt.2]
    rfl

theorem tokensFrom_tag {u : Text} (h : '>' ∉ u) (tag r : Text) :
    tokensFrom (some tag) (u ++ '>' :: r) = .tag (tag ++ u ++ ['>']) :: tokensFrom none r := by
  induction u generalizing tag with
  | nil => simp [tokensFrom]
  | cons c u ih =>
    rw [List.mem_cons, not_or] at h
    rw [List.cons_append, tokensFrom, if_neg (Ne.symm h.1), ih h.2]
    simp

/-- A tag that holds no angle bracket inside is read as a tag. -/
theorem tokens_tag_append {u : Text} (h : '>' ∉ u) (r : Text) :
    tokens ('<' :: u ++ '>' :: r) = .tag ('<' :: u ++ ['>']) :: tokens r := by
  rw [tokens, List.cons_append, tokensFrom, if_pos rfl, tokensFrom_tag h]
  rfl

theorem tokens_escape_append (t r : Text) :
    tokens (escape t ++ r) = (escape t).map .char ++ tokens r :=
  tokensFrom_append_of_notMem (not_mem_escape (Or.inl rfl) t) r

theorem tokens_openSpan_append {color : Text} (h : IsPlain color) (r : Text) :
    tokens (openSpan color ++ r) = .tag (openSpan color) :: tokens r := by
  have hcolor : '>' ∉ color := fun hmem => (h '>' hmem).1 (by decide)
  have hnone : '>' ∉ "span style=\"color:".toList ++ color ++ ['"'] := by
    simp only [List.mem_append, not_or]
    exact ⟨⟨by decide, hcolor⟩, by decide⟩
  have hopen (s : Text) : openSpan color ++ s =
      '<' :: ("span style=\"color:".toList ++ color ++ ['"']) ++ '>' :: s := by
    unfold openSpan
    simp
  have htag := tokens_tag_append hnone r
  rw [← hopen r, ← hopen [], List.append_nil] at htag
  exact htag

theorem tokens_closeSpan_append (r : Text) :
    tokens (closeSpan ++ r) = .tag closeSpan :: tokens r := by
  have hnone : '>' ∉ "/span".toList := by decide
  have hclose (s : Text) : closeSpan ++ s = '<' :: "/span".toList ++ '>' :: s := by
    unfold closeSpan
    simp
  have htag := tokens_tag_append hnone r
  rw [← hclose r, ← hclose [], List.append_nil] at htag
  exact htag

@[simp] theorem tags_escape_append (t r : Text) : tags (escape t ++ r) = tags r := by
  simp [tags, tokens_escape_append, List.filterMap_append, List.filterMap_map]

@[simp] theorem tags_closeSpan_append (r : Text) : tags (closeSpan ++ r) = closeSpan :: tags r := by
  simp [tags, tokens_closeSpan_append]

theorem tags_openSpan_append {color : Text} (h : IsPlain color) (r : Text) :
    tags (openSpan color ++ r) = openSpan color :: tags r := by
  simp [tags, tokens_openSpan_append h]

theorem isSpanTag_openSpan (color : Text) : isSpanTag (openSpan color) = true := by
  have hfront : "<span ".toList <+: "<span style=\"color:".toList := by decide
  have hopen : "<span ".toList <+: openSpan color := by
    unfold openSpan
    rw [List.append_assoc]
    exact hfront.trans (List.prefix_append _ _)
  rw [isSpanTag, Text.startsWith_iff.2 hopen, Bool.true_or]

theorem isSpanTag_closeSpan : isSpanTag closeSpan = true := by
  rw [isSpanTag, beq_self_eq_true, Bool.or_true]

@[simp] theorem stripTags_escape_append (t r : Text) :
    stripTags (escape t ++ r) = escape t ++ stripTags r := by
  simp [stripTags, tokens_escape_append, List.flatMap_map]

@[simp] theorem stripTags_closeSpan_append (r : Text) :
    stripTags (closeSpan ++ r) = stripTags r := by
  simp [stripTags, tokens_closeSpan_append, isSpanTag_closeSpan]

theorem stripTags_openSpan_append {color : Text} (h : IsPlain color) (r : Text) :
    stripTags (openSpan color ++ r) = stripTags r := by
  simp [stripTags, tokens_openSpan_append h, isSpanTag_openSpan]

end Tint.Markup
