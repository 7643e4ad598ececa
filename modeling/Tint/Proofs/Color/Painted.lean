import Mathlib.Order.CompletePartialOrder
import Tint.Proofs.Color.Notations
import Tint.Proofs.Paint.Preservation
set_option autoImplicit false

/-!
# The colors of rules and paintings

Every color of a rule set that has been read from a file is a word of the language of color codes,
and a painting is written in these colors and the one for delimiters without a color
(`RuleSet.colors_of_read`).  The digits of a channel may be of any script.  Written as ASCII digits
they make the channel the numeral of a number up to 255 (`Color.map_asciiDigit_code`), and the color
has such numerals as it stands exactly when it is a text of ASCII characters.
-/

namespace Tint

open Text (anyCase asciiDigit)

/-! ## Texts of ASCII characters -/

namespace Text

/-- The texts of ASCII characters. -/
def ascii : Language Char := {t | ∀ c ∈ t, c.toNat < 128}

instance (t : Text) : Decidable (t ∈ ascii) :=
  decidable_of_iff (t.all fun c => c.toNat < 128) <| by
    simp only [List.all_eq_true, decide_eq_true_eq]
    rfl

variable {l m : Language Char} {t : Text} {f : Char → Char}

theorem add_le_ascii (hl : l ≤ ascii) (hm : m ≤ ascii) : l + m ≤ ascii := by
  rintro t (ht | ht)
  · exact hl ht
  · exact hm ht

theorem mul_le_ascii (hl : l ≤ ascii) (hm : m ≤ ascii) : l * m ≤ ascii := by
  intro t ht
  obtain ⟨a, ha, b, hb, rfl⟩ := Language.mem_mul.1 ht
  intro c hc
  rcases List.mem_append.1 hc with hc | hc
  · exact hl ha c hc
  · exact hm hb c hc

theorem singleton_le_ascii (h : t ∈ ascii) : ({t} : Language Char) ≤ ascii := by
  rintro s rfl
  exact h

theorem anyCase_le_ascii (h : t ∈ ascii) : anyCase t ≤ ascii := by
  rintro s rfl c hc
  have hlower := h c.toLower (List.mem_map_of_mem hc)
  rw [toNat_toLower] at hlower
  split at hlower <;> omega

theorem map_of_mem_ascii (hf : ∀ c, c.toNat < 128 → f c = c) (h : t ∈ ascii) : t.map f = t := by
  have hsame : t.map f = t.map id := List.map_congr_left fun c hc => hf c (h c hc)
  rw [hsame, List.map_id]

/-- A function that keeps ASCII characters keeps a language of such texts. -/
theorem map_of_le_ascii (hf : ∀ c, c.toNat < 128 → f c = c) (h : l ≤ ascii) :
    Language.map f l = l := by
  ext t
  constructor
  · rintro ⟨s, hs, rfl⟩
    rwa [map_of_mem_ascii hf (h hs)]
  · intro ht
    exact ⟨t, ht, map_of_mem_ascii hf (h ht)⟩

end Text

namespace Color

open Text (ascii singleton_le_ascii mul_le_ascii add_le_ascii anyCase_le_ascii)

variable {t : Text} {l : Language Char} {f : Char → Char}

theorem hexCode_le_ascii : hexCode ≤ ascii := by
  intro t ht
  obtain ⟨digits, rfl, -, hdigits⟩ := mem_hexCode_iff.1 ht
  have hhex : Text.IsAscii isHexDigit :=
    (Text.isAscii_isDigit.or (Text.isAscii_range (by decide) 'a')).or
      (Text.isAscii_range (by decide) 'A')
  exact List.forall_mem_cons.2 ⟨by decide, fun c hc => hhex c (hdigits c hc)⟩

theorem alpha_le_ascii : alpha ≤ ascii := by
  intro t ht c hc
  rcases isDigit_or_eq_of_mem_isAlpha (mem_alpha_iff.1 ht) hc with hdigit | rfl
  · exact Text.isAscii_isDigit c hdigit
  · decide

theorem byteNumeral_le_ascii : byteNumeral ≤ ascii := by
  rintro t ⟨n, -, rfl⟩ c hc
  exact Text.isAscii_isDigit c (Nat.isDigit_of_mem_toDigits (by decide) (by decide) hc)

theorem channels_le_ascii (h : l ≤ ascii) : channels l ≤ ascii := by
  have hcomma : ({",".toList} : Language Char) ≤ ascii := singleton_le_ascii (by decide)
  exact mul_le_ascii (mul_le_ascii (mul_le_ascii (mul_le_ascii h hcomma) h) hcomma) h

theorem call_le_ascii {name : Text} (hname : name ∈ ascii) (h : l ≤ ascii) : call name l ≤ ascii := by
  have hopen : ({"(".toList} : Language Char) ≤ ascii := singleton_le_ascii (by decide)
  have hclose : ({")".toList} : Language Char) ≤ ascii := singleton_le_ascii (by decide)
  exact mul_le_ascii (mul_le_ascii (mul_le_ascii (anyCase_le_ascii hname) hopen) h) hclose

/-- Only the channels can hold other characters. -/
theorem code_le_ascii (h : l ≤ ascii) : code l ≤ ascii := by
  have hchannels := channels_le_ascii h
  have hcomma : ({",".toList} : Language Char) ≤ ascii := singleton_le_ascii (by decide)
  have halpha := mul_le_ascii (mul_le_ascii hchannels hcomma) alpha_le_ascii
  exact add_le_ascii (add_le_ascii (add_le_ascii hexCode_le_ascii (call_le_ascii (by decide) hchannels))
    (call_le_ascii (by decide) hchannels)) (call_le_ascii (by decide) halpha)

/-- A function that keeps ASCII characters changes the channels only. -/
theorem map_code (hf : ∀ c, c.toNat < 128 → f c = c) (l : Language Char) :
    Language.map f (code l) = code (Language.map f l) := by
  have hliteral {t : Text} (h : t ∈ ascii) : Language.map f {t} = {t} :=
    Text.map_of_le_ascii hf (singleton_le_ascii h)
  have hname {t : Text} (h : t ∈ ascii) : Language.map f (anyCase t) = anyCase t :=
    Text.map_of_le_ascii hf (anyCase_le_ascii h)
  have hcomma : Language.map f {",".toList} = {",".toList} := hliteral (by decide)
  have hopen : Language.map f {"(".toList} = {"(".toList} := hliteral (by decide)
  have hclose : Language.map f {")".toList} = {")".toList} := hliteral (by decide)
  have hrgb : Language.map f (anyCase "rgb".toList) = anyCase "rgb".toList := hname (by decide)
  have hrgba : Language.map f (anyCase "rgba".toList) = anyCase "rgba".toList := hname (by decide)
  have hhex := Text.map_of_le_ascii hf hexCode_le_ascii
  have halpha := Text.map_of_le_ascii hf alpha_le_ascii
  simp only [code, call, channels, map_add, map_mul, hcomma, hopen, hclose, hrgb, hrgba, hhex,
    halpha]

/-! ## Digits of other scripts -/

theorem map_asciiDigit_mem_channel (h : t ∈ channel) : t.map asciiDigit ∈ channel := by
  have hdigit {c : Char} (hc : isDecimalDigit c = true) : isDecimalDigit (asciiDigit c) = true :=
    isDecimalDigit_of_isDigit (Text.isDigit_asciiDigit hc)
  have hone : asciiDigit '1' = '1' := Text.asciiDigit_of_lt (by decide)
  have htwo : asciiDigit '2' = '2' := Text.asciiDigit_of_lt (by decide)
  have hfive : asciiDigit '5' = '5' := Text.asciiDigit_of_lt (by decide)
  have hkeep {c : Char} (hc : c ≤ '9') : asciiDigit c = c :=
    Text.asciiDigit_of_lt (Nat.lt_of_le_of_lt hc (by decide))
  have hle {c last : Char} (hc : c ≤ last) (hlast : last ≤ '9') : c ≤ '9' := UInt32.le_trans hc hlast
  rw [mem_channel_iff_or] at h ⊢
  rcases h with ⟨d, hd, rfl⟩ | ⟨tens, d, htens, hd, rfl⟩ | ⟨tens, d, htens, hd, rfl⟩ |
    ⟨tens, d, htens, hd, rfl⟩ | ⟨d, hd, rfl⟩
  · refine .inl ⟨d, hd, ?_⟩
    simp [htwo, hfive, hkeep (hle hd.2 (by decide))]
  · refine .inr (.inl ⟨tens, asciiDigit d, htens, hdigit hd, ?_⟩)
    simp [htwo, hkeep (hle htens.2 (by decide))]
  · refine .inr (.inr (.inl ⟨asciiDigit tens, asciiDigit d, hdigit htens, hdigit hd, ?_⟩))
    simp [hone]
  · refine .inr (.inr (.inr (.inl ⟨tens, asciiDigit d, htens, hdigit hd, ?_⟩)))
    simp [hkeep htens.2]
  · exact .inr (.inr (.inr (.inr ⟨asciiDigit d, hdigit hd, rfl⟩)))

theorem map_asciiDigit_mem_ascii (h : t ∈ channel) : t.map asciiDigit ∈ ascii := by
  intro c hc
  obtain ⟨d, hd, rfl⟩ := List.mem_map.1 hc
  have hdecimal := isDecimalDigit_of_mem_isChannel (mem_channel_iff.1 h) hd
  exact Text.isAscii_isDigit _ (Text.isDigit_asciiDigit hdecimal)

theorem map_asciiDigit_of_mem_ascii (h : t ∈ ascii) : t.map asciiDigit = t :=
  Text.map_of_mem_ascii (fun _ => Text.asciiDigit_of_lt) h

/-- With its digits as ASCII digits, a channel is the numeral of a number up to 255. -/
theorem map_asciiDigit_channel : Language.map asciiDigit channel = byteNumeral := by
  ext t
  constructor
  · rintro ⟨s, hs, rfl⟩
    exact (mem_channel_iff_mem_byteNumeral (map_asciiDigit_mem_ascii hs)).1
      (map_asciiDigit_mem_channel hs)
  · intro ht
    have hascii : t ∈ ascii := byteNumeral_le_ascii ht
    exact ⟨t, (mem_channel_iff_mem_byteNumeral hascii).2 ht, map_asciiDigit_of_mem_ascii hascii⟩

/-- With the digits of its channels as ASCII digits, a color code has numerals of numbers up to 255
as channels, and every code with such channels is had in this way. -/
theorem map_asciiDigit_code : Language.map asciiDigit (code channel) = code byteNumeral := by
  rw [map_code fun _ => Text.asciiDigit_of_lt, map_asciiDigit_channel]

/-- What is known of every color of a rule file. -/
structure IsCoded (color : Text) : Prop where
  mem_code : color ∈ code channel
  /-- With ASCII digits in the place of those of other scripts, the channels are numerals of numbers
  up to 255. -/
  map_mem_code : color.map asciiDigit ∈ code byteNumeral
  /-- The channels are such numerals if there is nothing to replace. -/
  mem_code_iff_ascii : color ∈ code byteNumeral ↔ ∀ c ∈ color, c.toNat < 128

theorem isCoded_of_isCompactCode (h : isCompactCode t = true) : IsCoded t := by
  have hcode : t ∈ code channel := mem_code_iff.2 h
  have hmap : t.map asciiDigit ∈ code byteNumeral := by
    rw [← map_asciiDigit_code]
    exact ⟨t, hcode, rfl⟩
  refine ⟨hcode, hmap, ?_, ?_⟩
  · intro hbyte
    exact code_le_ascii byteNumeral_le_ascii hbyte
  · intro hascii
    rwa [map_asciiDigit_of_mem_ascii hascii] at hmap

end Color

/-! ## Colors of rules -/

namespace RuleSet

/-- The colors that a rule set gives out. -/
inductive IsColor (rules : RuleSet) : Text → Prop where
  | entry {rule : EntryRule} (mem : rule ∈ rules.entries) : IsColor rules rule.color
  | delimiter {name color : Text} (found : rules.delimiterColor? name = some color) :
      IsColor rules color
  | docToken {word color : Text} (found : rules.docToken? word = some color) : IsColor rules color
  | keyword {word color : Text} (found : rules.keyword? word = some color) : IsColor rules color

variable {rules : RuleSet} {color : Text}

theorem WellFormed.isStored (h : rules.WellFormed) (hcolor : rules.IsColor color) :
    Color.IsStored color := by
  cases hcolor with
  | entry mem => exact h.entry_color mem
  | delimiter found => exact h.delimiterColor found
  | docToken found => exact h.docToken found
  | keyword found => exact h.keyword found

/-- The colors of paintings: those of the rules, and the one of delimiters to which they give none. -/
def Paints (rules : RuleSet) (color : Text) : Prop :=
  rules.IsColor color ∨ color = defaultDelimiterColor

theorem paints_delimiterColor (rules : RuleSet) (name : Text) :
    rules.Paints (rules.delimiterColor name) := by
  unfold delimiterColor
  cases h : rules.delimiterColor? name with
  | some color => exact .inl (.delimiter h)
  | none => exact .inr rfl

theorem paints_of_wordColor? {region : Region} {w : Text}
    (h : region.wordColor? rules w = some color) : rules.Paints color := by
  cases region with
  | outside => exact .inl (.keyword h)
  | doc e => exact .inl (.docToken h)
  | strong e within => cases h
  | weak e => cases h

theorem WellFormed.isCoded (h : rules.WellFormed) (hcolor : rules.Paints color) :
    Color.IsCoded color := by
  rcases hcolor with hcolor | rfl
  · exact Color.isCoded_of_isCompactCode (h.isStored hcolor).isCompactCode
  · exact Color.isCoded_of_isCompactCode rfl

end RuleSet

/-! ## Tags of paintings -/

open Markup

namespace Piece

/-- The tags that the piece is written with. -/
def tags : Piece → List Text
  | .char _ => []
  | .word color _ => [openSpan color, closeSpan]
  | .entry _ rule => [openSpan rule.color, closeSpan]
  | .opening color _ => [openSpan color]
  | .closing _ => [closeSpan]

theorem tags_html_append {piece : Piece} (h : piece.IsPlain) (r : Text) :
    Markup.tags (piece.html ++ r) = piece.tags ++ Markup.tags r := by
  cases piece with
  | char c =>
    have hchar := tags_escape_append [c] r
    rwa [escape_cons, escape_nil, List.append_nil] at hchar
  | word color w =>
    rw [html, colored, List.append_assoc, List.append_assoc, tags_openSpan_append h,
      tags_escape_append, tags_closeSpan_append]
    rfl
  | entry w rule =>
    rw [html, colored, List.append_assoc, List.append_assoc, tags_openSpan_append h,
      tags_escape_append, tags_closeSpan_append]
    rfl
  | opening color e =>
    rw [html, List.append_assoc, tags_openSpan_append h, tags_escape_append]
    rfl
  | closing e =>
    rw [html, List.append_assoc, tags_escape_append, tags_closeSpan_append]
    rfl

end Piece

theorem Painting.tags_html {painting : Painting} (h : ∀ piece ∈ painting, piece.IsPlain) :
    tags painting.html = painting.flatMap Piece.tags := by
  induction painting with
  | nil => rfl
  | cons piece painting ih =>
    have hrest := ih fun q hq => h q (List.mem_cons_of_mem _ hq)
    unfold html at hrest ⊢
    rw [List.flatMap_cons, Piece.tags_html_append (h piece List.mem_cons_self), hrest,
      List.flatMap_cons]

namespace Painter

variable {rules : RuleSet} {p : Painter} {piece : Piece} {region : Region} {text : Text}

/-- A move starts spans in colors of the rules only. -/
theorem Move.paints (move : Move rules p piece region) (h : p.Tracks rules rules.entries text) :
    ∀ tag ∈ piece.tags, tag = closeSpan ∨ ∃ color, rules.Paints color ∧ tag = openSpan color := by
  have hspan {color : Text} (hcolor : rules.Paints color) :
      ∀ tag ∈ [openSpan color, closeSpan],
        tag = closeSpan ∨ ∃ color, rules.Paints color ∧ tag = openSpan color := by
    intro tag htag
    rcases List.mem_pair.1 htag with rfl | rfl
    · exact .inr ⟨color, hcolor, rfl⟩
    · exact .inl rfl
  cases move with
  | entry due =>
    obtain ⟨word, after, -, -, -, -, -, hmem⟩ := h.rest_of_due due
    exact hspan (.inl (.entry hmem))
  | closing free closes =>
    intro tag htag
    exact .inl (List.mem_singleton.1 htag)
  | opening free stays enters opens =>
    intro tag htag
    exact .inr ⟨_, rules.paints_delimiterColor _, List.mem_singleton.1 htag⟩
  | word free stays hword colored => exact hspan (RuleSet.paints_of_wordColor? colored)
  | char free stays hrest => exact fun tag htag => absurd htag List.not_mem_nil

end Painter

/-- The tags of a painting start spans in colors of the rules, or end spans. -/
theorem RuleSet.WellFormed.tags_render {rules : RuleSet} (h : rules.WellFormed) (text tag : Text)
    (htag : tag ∈ tags (rules.render text)) :
    tag = closeSpan ∨ ∃ color, rules.Paints color ∧ tag = openSpan color := by
  have hstart := rules.tracks_start_scan rules.entries text
  have hnil {P : Piece → Prop} : ∀ piece ∈ ([] : List Piece), P piece := fun _ hp => nomatch hp
  have hplain := Painter.isPlain_painting (Painter.isPlain_finish hstart h hnil)
  have hpaints := Painter.forall_mem_pieces_finish hstart hnil fun hq move => move.paints hq
  have htags : tags (rules.render text) = (rules.paint text).flatMap Piece.tags :=
    Painting.tags_html hplain
  rw [htags] at htag
  obtain ⟨piece, hpiece, htag⟩ := List.mem_flatMap.1 htag
  rcases List.mem_append.1 hpiece with hpiece | hpiece
  · exact hpaints piece hpiece tag htag
  · obtain ⟨e, -, rfl⟩ := List.mem_map.1 hpiece
    exact .inl (List.mem_singleton.1 htag)

/-- Every color of the rules of a file is a color code, and the tags of a text are written in these
colors and the default one.  They are texts of ASCII characters, with numerals of numbers up to 255
as channels, as far as they have no digits of other scripts. -/
theorem RuleSet.colors_of_read {file : Text} {contents : RuleFile.Contents}
    (h : RuleFile.read file = .ok contents) :
    (∀ color, contents.rules.IsColor color → Color.IsCoded color) ∧
      ∀ text : Text, ∀ tag ∈ tags (contents.rules.render text), tag = closeSpan ∨
        ∃ color, contents.rules.Paints color ∧ Color.IsCoded color ∧ tag = openSpan color := by
  have hrules : contents.rules.WellFormed := RuleFile.wellFormed_of_read h
  refine ⟨fun color hcolor => hrules.isCoded (.inl hcolor), ?_⟩
  intro text tag htag
  rcases hrules.tags_render text tag htag with hclose | ⟨color, hcolor, hopen⟩
  · exact .inl hclose
  · exact .inr ⟨color, hcolor, hrules.isCoded hcolor, hopen⟩

/-- One digit of another script is enough: with it as an ASCII digit the color has numerals up to 255
as channels. -/
theorem RuleSet.colors_of_read_other_script :
    ∃ contents, RuleFile.read "%highlight voice: snow-bud v1.3%\n*entry : rgb(1٣, 0, 0)".toList =
        .ok contents ∧
      contents.rules.IsColor "rgb(1٣,0,0)".toList ∧
      "rgb(13,0,0)".toList ∈ Color.code Color.byteNumeral := by
  have hread : RuleFile.read "%highlight voice: snow-bud v1.3%\n*entry : rgb(1٣, 0, 0)".toList =
      .ok ⟨.ofDirectives [.entry ⟨[':'], "rgb(1٣,0,0)".toList⟩], []⟩ := rfl
  have hentry : ⟨[':'], "rgb(1٣,0,0)".toList⟩ ∈
      (ofDirectives [.entry ⟨[':'], "rgb(1٣,0,0)".toList⟩]).entries := List.mem_cons_self
  exact ⟨_, hread, .entry hentry, ((colors_of_read hread).1 _ (.entry hentry)).map_mem_code⟩

/-- Such a color is read and painted as it stands. -/
theorem RuleSet.paints_other_script :
    ∃ contents, RuleFile.read "%highlight voice: snow-bud v1.3%\nif rgb(٣,0,0)".toList =
        .ok contents ∧
      contents.rules.IsColor "rgb(٣,0,0)".toList ∧
      openSpan "rgb(٣,0,0)".toList ∈ tags (contents.rules.render "if".toList) ∧
      (¬∀ c ∈ "rgb(٣,0,0)".toList, c.toNat < 128) ∧
      "rgb(٣,0,0)".toList ∉ Color.code Color.byteNumeral := by
  have hread : RuleFile.read "%highlight voice: snow-bud v1.3%\nif rgb(٣,0,0)".toList =
      .ok ⟨.ofDirectives [.keyword "if".toList "rgb(٣,0,0)".toList], []⟩ := rfl
  have hkeyword : (ofDirectives [.keyword "if".toList "rgb(٣,0,0)".toList]).keyword? "if".toList =
      some "rgb(٣,0,0)".toList := rfl
  have hascii : ¬∀ c ∈ "rgb(٣,0,0)".toList, c.toNat < 128 := by simp
  refine ⟨_, hread, .keyword hkeyword, ?_, hascii, fun hcode => hascii ?_⟩
  · exact List.mem_cons_self
  · exact Color.code_le_ascii Color.byteNumeral_le_ascii hcode

end Tint
