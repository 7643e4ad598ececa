import Tint.Proofs.Paint.Flow
import Tint.Proofs.Paint.Reading
set_option autoImplicit false

/-!
# The extents of regions

Without entry matches the painter paints what `Reading.top` reads, though it carries a region from
step to step and knows nothing of a region's end before it gets there.

A reader agrees with the painter in a region (`ReadsAt`) when the part it reads at a place is
what the painter paints from there on before it is back in the region.  From such a reader
follows where the region ends (`flow_body`): the painter tries the closing delimiter between two
parts of the body and nowhere else.  So the region itself is a part of the region around it
(`readsAt_between`), and the readers agree with the painter from the inside out: strong, then
doc and weak, then the top level.
-/

namespace Tint

namespace Region

variable {rules : RuleSet} {region : Region} {previous : Option Char} {c : Char} {r : Text}
  {e : Enclosure}

theorem closing?_eq_none (hactive : region.active? = some e) {rest : Text}
    (h : ¬ e.right <+: rest) : region.closing? rest = none := by
  rw [Option.eq_none_iff_forall_not_mem]
  intro d hd
  obtain ⟨hd, hright⟩ := closing?_eq_some_iff.1 hd
  rw [hactive] at hd
  cases hd
  exact h hright

theorem choose_closing (hactive : region.active? = some e) (h : e.right <+: c :: r) :
    region.choose rules previous c r = (.closing e, region.parent) := by
  unfold choose
  rw [closing?_eq_some_iff.2 ⟨hactive, h⟩]

theorem choose_of_closing?_eq_none (rules : RuleSet) (previous : Option Char)
    (h : region.closing? (c :: r) = none) : region.choose rules previous c r =
      (region.inside? rules previous (c :: r)).getD (.char c, region) := by
  unfold choose
  rw [h]

theorem active?_of_enters {tier : Tier} {region' : Region} (h : region.Enters tier e region') :
    region'.active? = some e := by
  cases h <;> rfl

theorem parent_of_enters {tier : Tier} {region' : Region} (h : region.Enters tier e region') :
    region'.parent = region := by
  cases h <;> rfl

theorem opened_of_enters {tier : Tier} {region' : Region} (h : region.Enters tier e region') :
    region'.opened = e :: region.opened := by
  cases h <;> rfl

end Region

namespace Reading

variable {rules : RuleSet} {region region' : Region} {tier : Tier} {e : Enclosure}
  {previous : Option Char} {c : Char} {r rest : Text} {part : Part}
  {next : Option Char → Char → Text → Part}

theorem opener?_eq_openAt? (rules : RuleSet) (tier : Tier) (rest : Text) :
    opener? rules tier rest = (rules.enclosures tier).openAt? rest :=
  ((rules.enclosures tier).openAt?_eq_find? rest).symm

/-- The part stands at the place, and the painter paints it unless the region ends there. -/
structure ReadsAt (rules : RuleSet) (region : Region) (previous : Option Char) (c : Char)
    (r : Text) (part : Part) : Prop where
  ne_nil : part.source ≠ []
  isPrefix : part.source <+: c :: r
  flow_eq : region.closing? (c :: r) = none → rules.flow region previous 0 (c :: r) =
    part.painting ++
      rules.flow region part.source.getLast? 0 ((c :: r).drop part.source.length)

/-- The reader reads what the painter paints in the region. -/
def Reads (rules : RuleSet) (region : Region) (next : Option Char → Char → Text → Part) : Prop :=
  ∀ previous c r, ReadsAt rules region previous c r (next previous c r)

/-- A piece that does not change the region. -/
theorem readsAt_piece {piece : Piece}
    (h : (region.inside? rules previous (c :: r)).getD (.char c, region) = (piece, region))
    (hne : piece.source ≠ []) (hfront : piece.source <+: c :: r) :
    ReadsAt rules region previous c r ⟨piece.source, [piece]⟩ := by
  refine ⟨hne, hfront, ?_⟩
  intro hclosing
  have hchoose := Region.choose_of_closing?_eq_none rules previous hclosing
  rw [h] at hchoose
  exact RuleSet.flow_cons hchoose hne hfront

theorem readsAt_char (h : region.inside? rules previous (c :: r) = none) :
    ReadsAt rules region previous c r (.char c) := by
  have hchar : (region.inside? rules previous (c :: r)).getD (.char c, region) =
      (.char c, region) := by
    rw [h]
    rfl
  exact readsAt_piece hchar (List.cons_ne_nil _ _) ⟨r, rfl⟩

/-- A colored word or a character. -/
theorem readsAt_word? {color? : Text → Option Text}
    (h : region.inside? rules previous (c :: r) = region.word? previous (c :: r) color?) :
    ReadsAt rules region previous c r ((word? color? previous (c :: r)).getD (.char c)) := by
  unfold Region.word? at h
  unfold word?
  cases hw : Word.at? previous (c :: r) with
  | none =>
    rw [hw] at h
    exact readsAt_char h
  | some w =>
    rw [hw, Option.bind_some] at h
    rw [Option.bind_some]
    cases hcolor : color? w with
    | none =>
      rw [hcolor] at h
      exact readsAt_char h
    | some color =>
      rw [hcolor] at h
      have hne := Word.ne_nil_of_at? hw
      have hfront := Word.isPrefix_of_at? hw
      have hword : (region.inside? rules previous (c :: r)).getD (.char c, region) =
          (.word color w, region) := by
        rw [h]
        rfl
      exact readsAt_piece hword hne hfront

/-! ## Where the painter closes a region -/

/-- The painting of a body: its parts up to the leftmost closing delimiter that none of them hides,
or all of them. -/
theorem flow_body (h : Reads rules region next) (hactive : region.active? = some e)
    (hright : e.right ≠ []) (previous : Option Char) (rest : Text) :
    rules.flow region previous 0 rest =
      match occurrence? e.right (isInside (partsFrom next previous 0 rest)) rest with
      | some i => painting (upTo (partsFrom next previous 0 rest) i) ++ .closing e ::
          rules.flow region.parent e.right.getLast? 0 (rest.drop (i + e.right.length))
      | none => painting (partsFrom next previous 0 rest) ++ region.opened.map .closing := by
  induction hn : rest.length using Nat.strongRecOn generalizing previous rest with
  | ind n ih =>
    subst hn
    cases rest with
    | nil => rfl
    | cons c r =>
      by_cases hclose : e.right <+: c :: r
      · have hzero := occurrence?_eq_zero hright hclose
          (isInside_zero (partsFrom next previous 0 (c :: r)))
        rw [hzero, RuleSet.flow_cons (Region.choose_closing hactive hclose) hright hclose]
        dsimp only
        rw [upTo_zero, Nat.zero_add]
        rfl
      · obtain ⟨hne, hfront, hflow⟩ := h previous c r
        have hparts := partsFrom_cons hne hfront
        obtain ⟨after, hafter⟩ := hfront
        have hdrop : (c :: r).drop (next previous c r).source.length = after := by
          rw [← hafter, List.drop_left]
        have hlt : after.length < (c :: r).length := by
          have := List.length_pos_iff.2 hne
          rw [← hafter, List.length_append]
          omega
        have hstart : ¬ e.right <+: (next previous c r).source ++ after := by
          rw [hafter]
          exact hclose
        rw [hflow (Region.closing?_eq_none hactive hclose), hparts, hdrop,
          ih _ hlt (next previous c r).source.getLast? after rfl, ← hafter,
          occurrence?_append hstart]
        cases occurrence? e.right
            (isInside (partsFrom next (next previous c r).source.getLast? 0 after)) after with
        | none => simp
        | some i =>
          dsimp only [Option.map_some]
          rw [upTo_length_add hne, painting_cons, List.append_assoc, Nat.add_assoc,
            List.drop_length_add_append]

/-- The painting of a text outside of all regions. -/
theorem flow_outside (h : Reads rules .outside next) (previous : Option Char) (rest : Text) :
    rules.flow .outside previous 0 rest = painting (partsFrom next previous 0 rest) := by
  induction hn : rest.length using Nat.strongRecOn generalizing previous rest with
  | ind n ih =>
    subst hn
    cases rest with
    | nil => rfl
    | cons c r =>
      obtain ⟨hne, hfront, hflow⟩ := h previous c r
      have hlt : ((c :: r).drop (next previous c r).source.length).length < (c :: r).length := by
        have := List.length_pos_iff.2 hne
        rw [List.length_drop, List.length_cons]
        omega
      rw [hflow rfl, partsFrom_cons hne hfront, painting_cons, ih _ hlt _ _ rfl]

/-- A region, from its opening to its closing delimiter, is a part of the region around it. -/
theorem readsAt_between (h : Reads rules region' next) (henters : region.Enters tier e region')
    (hrules : rules.WellFormed) (hopen : opener? rules tier (c :: r) = some e)
    (hinside : region.inside? rules previous (c :: r) =
      some (.opening (rules.delimiterColor e.name) e, region')) :
    ReadsAt rules region previous c r
      (between (rules.delimiterColor e.name) e ((c :: r).drop e.left.length)
        (partsFrom next e.left.getLast? 0 ((c :: r).drop e.left.length))
        (occurrence? e.right
          (isInside (partsFrom next e.left.getLast? 0 ((c :: r).drop e.left.length)))
          ((c :: r).drop e.left.length))) := by
  rw [opener?_eq_openAt?] at hopen
  obtain ⟨he, hleft⟩ := EnclosureSet.openAt?_eq_some hopen
  have hleft_ne := hrules.left_ne_nil he
  have hright_ne := hrules.right_ne_nil he
  have hactive := Region.active?_of_enters henters
  have hopening : region.closing? (c :: r) = none → rules.flow region previous 0 (c :: r) =
      .opening (rules.delimiterColor e.name) e ::
        rules.flow region' e.left.getLast? 0 ((c :: r).drop e.left.length) := by
    intro hclosing
    have hchoose := Region.choose_of_closing?_eq_none rules previous hclosing
    rw [hinside] at hchoose
    exact RuleSet.flow_cons hchoose hleft_ne hleft
  obtain ⟨rest, hrest⟩ := hleft
  have hdrop : (c :: r).drop e.left.length = rest := by rw [← hrest, List.drop_left]
  rw [hdrop] at hopening ⊢
  rw [flow_body h hactive hright_ne, Region.parent_of_enters henters,
    Region.opened_of_enters henters] at hopening
  cases hocc : occurrence? e.right (isInside (partsFrom next e.left.getLast? 0 rest)) rest with
  | none =>
    rw [hocc] at hopening
    refine ⟨List.append_ne_nil_of_left_ne_nil hleft_ne _, ⟨[], ?_⟩, ?_⟩
    · rw [List.append_nil]
      exact hrest
    · intro hclosing
      rw [hopening hclosing, ← hrest]
      simp [between, RuleSet.flow]
  | some i =>
    rw [hocc] at hopening
    obtain ⟨-, ⟨after, hafter⟩, -⟩ := occurrence?_eq_some_iff.1 hocc
    have htake : rest = rest.take i ++ (e.right ++ after) := by
      rw [hafter, List.take_append_drop]
    have hlast : (e.left ++ rest.take i ++ e.right).getLast? = e.right.getLast? := by
      rw [List.getLast?_append_of_ne_nil _ hright_ne]
    have hskip : rest.drop (i + e.right.length) = after := by
      rw [← List.drop_drop, ← hafter, List.drop_left]
    have hsource : c :: r = (e.left ++ rest.take i ++ e.right) ++ after := by
      rw [← hrest, List.append_assoc, List.append_assoc, ← htake]
    refine ⟨?_, ⟨after, hsource.symm⟩, ?_⟩
    · exact List.append_ne_nil_of_right_ne_nil _ hright_ne
    · intro hclosing
      rw [hopening hclosing]
      dsimp only [between]
      rw [hlast, hskip, hsource, List.drop_left]
      simp

/-! ## The readers of the four kinds of regions -/

def charItem (_ : Option Char) (c : Char) (_ : Text) : Part := .char c

theorem partsFrom_charItem (previous : Option Char) (rest : Text) :
    partsFrom charItem previous 0 rest = rest.map .char := by
  induction rest generalizing previous with
  | nil => rfl
  | cons c r ih => exact congrArg (Part.char c :: ·) (ih (some c))

theorem reads_strong (e : Enclosure) (within : Option Enclosure) :
    Reads rules (.strong e within) charItem := by
  intro previous c r
  exact readsAt_char rfl

/-- The closing delimiter of a strong region is hidden nowhere. -/
theorem strongRegion_eq (e : Enclosure) (rest : Text) :
    strongRegion rules e rest = between (rules.delimiterColor e.name) e rest
      (partsFrom charItem e.left.getLast? 0 rest)
      (occurrence? e.right (isInside (partsFrom charItem e.left.getLast? 0 rest)) rest) := by
  have hinside : isInside (rest.map .char) = fun _ => false :=
    funext fun i => isInside_map_char rest i
  rw [partsFrom_charItem, hinside]
  rfl

theorem reads_doc (e : Enclosure) : Reads rules (.doc e) (docItem rules) := by
  intro previous c r
  exact readsAt_word? rfl

theorem reads_weak (hrules : rules.WellFormed) (outer : Enclosure) :
    Reads rules (.weak outer) (weakItem rules) := by
  intro previous c r
  have hinside : Region.inside? rules (.weak outer) previous (c :: r) =
      (opener? rules .strong (c :: r)).map fun e =>
        (.opening (rules.delimiterColor e.name) e, .strong e (some outer)) := by
    rw [opener?_eq_openAt?]
    rfl
  unfold weakItem
  cases hopen : opener? rules .strong (c :: r) with
  | none =>
    rw [hopen] at hinside
    exact readsAt_char hinside
  | some e =>
    rw [hopen] at hinside
    rw [Option.map_some, Option.getD_some, strongRegion_eq]
    exact readsAt_between (reads_strong e _) (.inner outer e) hrules hopen hinside

theorem reads_outside (hrules : rules.WellFormed) : Reads rules .outside (topItem rules) := by
  intro previous c r
  have hopening (tier : Tier) (into : Enclosure → Region) :
      Region.opening? rules (c :: r) tier into = (opener? rules tier (c :: r)).map fun e =>
        (.opening (rules.delimiterColor e.name) e, into e) := by
    rw [opener?_eq_openAt?]
    rfl
  have hinside : Region.inside? rules .outside previous (c :: r) =
      ((Region.opening? rules (c :: r) .doc .doc).or <|
        (Region.opening? rules (c :: r) .strong (.strong · none)).or <|
        (Region.opening? rules (c :: r) .weak .weak).or <|
        Region.word? .outside previous (c :: r) rules.keyword?) := rfl
  rw [hopening, hopening, hopening] at hinside
  unfold topItem
  dsimp only
  cases hdoc : opener? rules .doc (c :: r) with
  | some e =>
    rw [hdoc] at hinside
    exact readsAt_between (reads_doc e) (.doc e) hrules hdoc hinside
  | none =>
    rw [hdoc] at hinside
    cases hstrong : opener? rules .strong (c :: r) with
    | some e =>
      rw [hstrong] at hinside
      have hread := readsAt_between (reads_strong e none) (.strong e) hrules hstrong hinside
      rw [← strongRegion_eq] at hread
      exact hread
    | none =>
      rw [hstrong] at hinside
      cases hweak : opener? rules .weak (c :: r) with
      | some e =>
        rw [hweak] at hinside
        exact readsAt_between (reads_weak hrules e) (.weak e) hrules hweak hinside
      | none =>
        rw [hweak] at hinside
        exact readsAt_word? hinside

end Reading

/-- Without entry matches, the HTML of a text is that of its reading from the outside in. -/
theorem RuleSet.renderWith_nil_eq_reading {file : Text} {contents : RuleFile.Contents}
    (h : RuleFile.read file = .ok contents) (text : Text) :
    contents.rules.renderWith [] text = (Reading.top contents.rules text).html := by
  have hrules : contents.rules.WellFormed := RuleFile.wellFormed_of_read h
  rw [renderWith, painting_paintWith_nil hrules,
    Reading.flow_outside (Reading.reads_outside hrules), Reading.top]

/-- A doc token that starts before a closing delimiter and covers it. -/
theorem RuleSet.renderWith_nil_eq_reading_covered :
    ∃ contents, RuleFile.read
        "%highlight voice: snow-bud v1.3%\n+>enclose doc (* end\n+-@end #c77".toList =
          .ok contents ∧
      (Reading.top contents.rules "(* @end end".toList).html =
        "<span style=\"color:#000\">(* ".toList ++
          "<span style=\"color:#c77\">@end</span> end</span>".toList := by
  have hread : RuleFile.read
      "%highlight voice: snow-bud v1.3%\n+>enclose doc (* end\n+-@end #c77".toList =
        .ok ⟨.ofDirectives [.enclosure .doc ⟨"doc".toList, "(*".toList, "end".toList⟩,
          .docToken "@end".toList "#c77".toList], []⟩ := rfl
  refine ⟨_, hread, ?_⟩
  rw [← renderWith_nil_eq_reading hread]
  rfl

end Tint
