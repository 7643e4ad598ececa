set_option autoImplicit false

/-!
# Longest first

The order in which rules that could all apply at one place are tried: by descending measure,
and in their given order where the measures agree.  `longestFirst_perm` says that nothing is
lost or made up, `longestFirst_sorted` that the measures descend, and
`filter_longestFirst` that elements of one measure keep their order; together they fix the
result (`eq_of_filter_eq`), so it is that of every stable sort (`longestFirst_eq_mergeSort`).

The elements are laid on piles, one for each measure that occurs, so a long list with few
measures takes little time.
-/

namespace Tint

variable {α : Type}

/-- Puts `x`, of length `n`, on top of the pile of that length.  The piles stand in descending
order of their lengths. -/
def addToPile (n : Nat) (x : α) : List (Nat × List α) → List (Nat × List α)
  | [] => [(n, [x])]
  | (m, pile) :: r =>
    if n < m then (m, pile) :: addToPile n x r
    else if n = m then (m, x :: pile) :: r
    else (n, [x]) :: (m, pile) :: r

/-- The elements of a list by length, the longest first. -/
def piles (length : α → Nat) (l : List α) : List (Nat × List α) :=
  l.foldr (fun x => addToPile (length x) x) []

/-- The list by descending length; elements of one length keep their order. -/
def longestFirst (length : α → Nat) (l : List α) : List α :=
  (piles length l).flatMap (·.2)

@[simp] theorem piles_nil (f : α → Nat) : piles f [] = [] := rfl

@[simp] theorem piles_cons (f : α → Nat) (x : α) (l : List α) :
    piles f (x :: l) = addToPile (f x) x (piles f l) := rfl

@[simp] theorem longestFirst_nil (f : α → Nat) : longestFirst f [] = [] := rfl

/-! ## Adding to a pile -/

/-- The piles are those of before, apart from the one of the new element's length. -/
theorem mem_addToPile {n : Nat} {x : α} {ps : List (Nat × List α)} {p : Nat × List α}
    (h : p ∈ addToPile n x ps) : p ∈ ps ∨ p.1 = n := by
  induction ps with
  | nil => simp_all [addToPile]
  | cons q r ih =>
    obtain ⟨m, pile⟩ := q
    unfold addToPile at h
    split at h
    · rcases List.mem_cons.1 h with rfl | h
      · exact Or.inl List.mem_cons_self
      · exact (ih h).imp_left (List.mem_cons_of_mem _)
    · split at h
      · rename_i hnm
        rcases List.mem_cons.1 h with rfl | h
        · exact Or.inr hnm.symm
        · exact Or.inl (List.mem_cons_of_mem _ h)
      · rcases List.mem_cons.1 h with rfl | h
        · exact Or.inr rfl
        · exact Or.inl h

theorem addToPile_descending {n : Nat} {x : α} {ps : List (Nat × List α)}
    (h : ps.Pairwise fun p q => q.1 < p.1) :
    (addToPile n x ps).Pairwise fun p q => q.1 < p.1 := by
  induction ps with
  | nil => simp [addToPile]
  | cons q r ih =>
    obtain ⟨m, pile⟩ := q
    obtain ⟨hm, hr⟩ := List.pairwise_cons.1 h
    unfold addToPile
    split
    · rename_i hnm
      refine List.pairwise_cons.2 ⟨fun p hp => ?_, ih hr⟩
      rcases mem_addToPile hp with hp | hp
      · exact hm p hp
      · exact hp ▸ hnm
    · split
      · exact List.pairwise_cons.2 ⟨hm, hr⟩
      · refine List.pairwise_cons.2 ⟨fun p hp => ?_, h⟩
        rcases List.mem_cons.1 hp with rfl | hp
        · exact Nat.lt_of_le_of_ne (by omega) (by omega)
        · have := hm p hp
          omega

/-- Each pile holds elements of its own length. -/
def ArePiles (f : α → Nat) (ps : List (Nat × List α)) : Prop :=
  ∀ p ∈ ps, ∀ y ∈ p.2, f y = p.1

theorem arePiles_addToPile {f : α → Nat} {x : α} {ps : List (Nat × List α)}
    (h : ArePiles f ps) : ArePiles f (addToPile (f x) x ps) := by
  induction ps with
  | nil => simp [ArePiles, addToPile]
  | cons q r ih =>
    obtain ⟨m, pile⟩ := q
    have hpile : ∀ y ∈ pile, f y = m := h (m, pile) List.mem_cons_self
    have hr : ArePiles f r := fun p hp => h p (List.mem_cons_of_mem _ hp)
    unfold addToPile
    intro p hp
    split at hp
    · rcases List.mem_cons.1 hp with rfl | hp
      · exact hpile
      · exact ih hr p hp
    · split at hp
      · rename_i hnm
        rcases List.mem_cons.1 hp with rfl | hp
        · intro y hy
          rcases List.mem_cons.1 hy with rfl | hy
          · exact hnm
          · exact hpile y hy
        · exact hr p hp
      · rcases List.mem_cons.1 hp with rfl | hp
        · simp
        · exact h p hp

theorem flatMap_addToPile_perm (n : Nat) (x : α) (ps : List (Nat × List α)) :
    ((addToPile n x ps).flatMap (·.2)).Perm (x :: ps.flatMap (·.2)) := by
  induction ps with
  | nil => exact List.Perm.refl _
  | cons q r ih =>
    obtain ⟨m, pile⟩ := q
    unfold addToPile
    split
    · exact (ih.append_left pile).trans List.perm_middle
    · split
      · exact List.Perm.refl _
      · exact List.Perm.refl _

/-- Before the elements of its own length the new one comes first. -/
theorem filter_flatMap_addToPile {f : α → Nat} {ps : List (Nat × List α)} (h : ArePiles f ps)
    (x : α) (n : Nat) :
    ((addToPile (f x) x ps).flatMap (·.2)).filter (fun y => f y == n) =
      (x :: ps.flatMap (·.2)).filter fun y => f y == n := by
  induction ps with
  | nil => rfl
  | cons q r ih =>
    obtain ⟨m, pile⟩ := q
    have hpile : ∀ y ∈ pile, f y = m := h (m, pile) List.mem_cons_self
    unfold addToPile
    split
    · rename_i hxm
      rw [List.flatMap_cons, List.filter_append, ih fun p hp => h p (List.mem_cons_of_mem _ hp),
        List.flatMap_cons, List.filter_cons, List.filter_cons, List.filter_append]
      split
      · rename_i hx
        have hnone : pile.filter (fun y => f y == n) = [] := by
          refine List.filter_eq_nil_iff.2 fun y hy => ?_
          have := hpile y hy
          simp only [beq_iff_eq] at hx ⊢
          omega
        simp only [hnone, List.nil_append]
      · rfl
    · split
      · rfl
      · rfl

theorem piles_descending (f : α → Nat) (l : List α) :
    (piles f l).Pairwise fun p q => q.1 < p.1 := by
  induction l with
  | nil => exact List.Pairwise.nil
  | cons x r ih => exact addToPile_descending ih

theorem arePiles_piles (f : α → Nat) (l : List α) : ArePiles f (piles f l) := by
  induction l with
  | nil => simp [ArePiles]
  | cons x r ih => exact arePiles_addToPile ih

/-! ## The order -/

theorem longestFirst_perm (f : α → Nat) (l : List α) : (longestFirst f l).Perm l := by
  induction l with
  | nil => exact List.Perm.refl _
  | cons x r ih => exact (flatMap_addToPile_perm (f x) x _).trans (ih.cons x)

@[simp] theorem mem_longestFirst {f : α → Nat} {x : α} {l : List α} :
    x ∈ longestFirst f l ↔ x ∈ l :=
  (longestFirst_perm f l).mem_iff

theorem longestFirst_sorted (f : α → Nat) (l : List α) :
    (longestFirst f l).Pairwise fun a b => f b ≤ f a := by
  have hpiles := arePiles_piles f l
  refine List.pairwise_flatMap.2 ⟨fun p hp => ?_, ?_⟩
  · refine List.pairwise_iff_forall_sublist.2 fun {a b} hab => ?_
    have ha := hpiles p hp a (hab.subset (by simp))
    have hb := hpiles p hp b (hab.subset (by simp))
    omega
  · refine (piles_descending f l).imp_of_mem fun {p q} hp hq hlt a ha b hb => ?_
    have := hpiles p hp a ha
    have := hpiles q hq b hb
    omega

/-- Elements of one length keep their order. -/
theorem filter_longestFirst (f : α → Nat) (n : Nat) (l : List α) :
    (longestFirst f l).filter (fun y => f y == n) = l.filter (fun y => f y == n) := by
  induction l with
  | nil => rfl
  | cons x r ih =>
    unfold longestFirst at ih ⊢
    rw [piles_cons, filter_flatMap_addToPile (arePiles_piles f r), List.filter_cons,
      List.filter_cons, ih]

/-! ## Other ways to the same order -/

/-- A list is fixed by descending measures and the elements of each measure in their order. -/
theorem eq_of_filter_eq {f : α → Nat} {l l' : List α} (h : l.Pairwise fun a b => f b ≤ f a)
    (h' : l'.Pairwise fun a b => f b ≤ f a)
    (hfilter : ∀ n, l.filter (fun y => f y == n) = l'.filter fun y => f y == n) : l = l' := by
  induction l generalizing l' with
  | nil =>
    cases l' with
    | nil => rfl
    | cons y s => simpa using hfilter (f y)
  | cons x r ih =>
    cases l' with
    | nil => simpa using hfilter (f x)
    | cons y s =>
      obtain ⟨hx, hr⟩ := List.pairwise_cons.1 h
      obtain ⟨hy, hs⟩ := List.pairwise_cons.1 h'
      have hmem (z : α) : z ∈ x :: r ↔ z ∈ y :: s := by
        have hz : z ∈ (x :: r).filter (fun w => f w == f z) ↔
            z ∈ (y :: s).filter fun w => f w == f z := by rw [hfilter]
        simpa using hz
      -- each list starts with one of its longest elements
      have hle : f x ≤ f y := by
        rcases List.mem_cons.1 ((hmem x).1 List.mem_cons_self) with rfl | hxs
        · exact Nat.le_refl _
        · exact hy x hxs
      have hge : f y ≤ f x := by
        rcases List.mem_cons.1 ((hmem y).2 List.mem_cons_self) with rfl | hyr
        · exact Nat.le_refl _
        · exact hx y hyr
      have hhead := hfilter (f x)
      simp only [List.filter_cons, Nat.le_antisymm hge hle, beq_self_eq_true, if_true] at hhead
      obtain ⟨rfl, -⟩ := List.cons.inj hhead
      congr 1
      refine ih hr hs fun n => ?_
      have hn := hfilter n
      rw [List.filter_cons, List.filter_cons] at hn
      split at hn
      · exact (List.cons.inj hn).2
      · exact hn

/-- Sorting the parts first makes no difference. -/
theorem longestFirst_append (f : α → Nat) (l l' : List α) :
    longestFirst f (longestFirst f l ++ longestFirst f l') = longestFirst f (l ++ l') := by
  refine eq_of_filter_eq (longestFirst_sorted f _) (longestFirst_sorted f _) fun n => ?_
  rw [filter_longestFirst, filter_longestFirst, List.filter_append, List.filter_append,
    filter_longestFirst, filter_longestFirst]

theorem longestFirst_eq_mergeSort (f : α → Nat) (l : List α) :
    longestFirst f l = l.mergeSort fun a b => f b ≤ f a := by
  have htrans (a b c : α) : decide (f b ≤ f a) = true → decide (f c ≤ f b) = true →
      decide (f c ≤ f a) = true := by
    simp only [decide_eq_true_eq]
    omega
  have htotal (a b : α) : (decide (f b ≤ f a) || decide (f a ≤ f b)) = true := by
    simp only [Bool.or_eq_true, decide_eq_true_eq]
    omega
  have hsorted : (l.mergeSort fun a b => f b ≤ f a).Pairwise fun a b => f b ≤ f a :=
    (List.pairwise_mergeSort htrans htotal l).imp of_decide_eq_true
  refine eq_of_filter_eq (longestFirst_sorted f l) hsorted fun n => ?_
  rw [filter_longestFirst]
  -- elements of one measure are in order already, so a stable sort keeps them
  have hpairwise : (l.filter fun y => f y == n).Pairwise fun a b => decide (f b ≤ f a) = true := by
    refine List.pairwise_filter.2 (List.pairwise_of_forall fun a b ha hb => ?_)
    rw [beq_iff_eq] at ha hb
    exact decide_eq_true (by omega)
  have hsub := List.sublist_mergeSort htrans htotal hpairwise List.filter_sublist
  have hfilter := hsub.filter fun y => f y == n
  simp only [List.filter_filter, Bool.and_self] at hfilter
  refine hfilter.eq_of_length ?_
  exact ((List.mergeSort_perm l _).filter _).length_eq.symm

end Tint
