set_option autoImplicit false

/-!
# Loops

A loop takes steps until its state is done.  It is run here with a bound on the number of
steps.  When every step lowers a measure (`Descends`) the bound is immaterial: from some bound on
the loop comes to its end, and no bound lets it take more steps than the measure allows.  What a
whole run does is then shown from its end backwards (`run_induction`).

A step of a text scanner only moves on while its state fits the text, so the measure is
relative to an invariant of the loop.
-/

namespace Tint

/-- A step and a test for the end. -/
structure Loop (σ : Type) where
  step : σ → σ
  done : σ → Bool

namespace Loop

variable {σ : Type} (l : Loop σ)

/-- The state after at most `fuel` steps. -/
def run : (fuel : Nat) → σ → σ
  | 0, s => s
  | fuel + 1, s => if l.done s then s else run fuel (l.step s)

/-- The states from which the steps are taken, in order. -/
def visited : (fuel : Nat) → σ → List σ
  | 0, _ => []
  | fuel + 1, s => if l.done s then [] else s :: visited fuel (l.step s)

/-- Every step keeps the invariant. -/
def Keeps (I : σ → Prop) : Prop := ∀ s, l.done s = false → I s → I (l.step s)

/-- Every step keeps the invariant and lowers the measure. -/
structure Descends (I : σ → Prop) (measure : σ → Nat) : Prop where
  keeps : l.Keeps I
  lt : ∀ s, l.done s = false → I s → measure (l.step s) < measure s

variable {l}

theorem run_of_done {s : σ} (h : l.done s = true) (fuel : Nat) : l.run fuel s = s := by
  cases fuel with
  | zero => rfl
  | succ fuel => rw [run, if_pos h]

theorem run_succ {s : σ} (h : l.done s = false) (fuel : Nat) :
    l.run (fuel + 1) s = l.run fuel (l.step s) := by
  rw [run, h]
  rfl

theorem visited_of_done {s : σ} (h : l.done s = true) (fuel : Nat) : l.visited fuel s = [] := by
  cases fuel with
  | zero => rfl
  | succ fuel => rw [visited, if_pos h]

theorem visited_succ {s : σ} (h : l.done s = false) (fuel : Nat) :
    l.visited (fuel + 1) s = s :: l.visited fuel (l.step s) := by
  rw [visited, h]
  rfl

variable {I : σ → Prop} {measure : σ → Nat}

/-- What every step keeps holds at the end. -/
theorem run_invariant (hkeeps : l.Keeps I) (fuel : Nat) {s : σ} (h : I s) : I (l.run fuel s) := by
  induction fuel generalizing s with
  | zero => exact h
  | succ fuel ih =>
    cases hs : l.done s with
    | true =>
      rw [run_of_done hs]
      exact h
    | false =>
      rw [run_succ hs]
      exact ih (hkeeps s hs h)

/-- What every step keeps holds wherever a step is taken. -/
theorem visited_invariant (hkeeps : l.Keeps I) {fuel : Nat} {s s' : σ} (h : I s)
    (hs' : s' ∈ l.visited fuel s) : I s' ∧ l.done s' = false := by
  induction fuel generalizing s with
  | zero => cases hs'
  | succ fuel ih =>
    cases hs : l.done s with
    | true =>
      rw [visited_of_done hs] at hs'
      cases hs'
    | false =>
      rw [visited_succ hs] at hs'
      rcases List.mem_cons.1 hs' with rfl | hs'
      · exact ⟨h, hs⟩
      · exact ih (hkeeps s hs h) hs'

/-- A relation between a state, the states visited from it and the last one holds of a run when it
holds where nothing is left to do, and every step carries it back. -/
theorem run_induction {Q : σ → List σ → σ → Prop} (hl : l.Descends I measure)
    (hend : ∀ s, l.done s = true → I s → Q s [] s)
    (hback : ∀ s states t, l.done s = false → I s → Q (l.step s) states t → Q s (s :: states) t)
    {fuel : Nat} {s : σ} (h : I s) (hfuel : measure s ≤ fuel) :
    Q s (l.visited fuel s) (l.run fuel s) := by
  induction fuel generalizing s with
  | zero =>
    cases hs : l.done s with
    | true => exact hend s hs h
    | false =>
      have := hl.lt s hs h
      omega
  | succ fuel ih =>
    cases hs : l.done s with
    | true =>
      rw [run_of_done hs, visited_of_done hs]
      exact hend s hs h
    | false =>
      have := hl.lt s hs h
      rw [run_succ hs, visited_succ hs]
      exact hback s _ _ hs h (ih (hl.keeps s hs h) (by omega))

/-- The loop ends when it may take as many steps as the measure says. -/
theorem done_run (hl : l.Descends I measure) {fuel : Nat} {s : σ} (h : I s)
    (hfuel : measure s ≤ fuel) : l.done (l.run fuel s) = true := by
  refine run_induction (Q := fun _ _ t => l.done t = true) hl ?_ ?_ h hfuel
  · intro s hs _
    exact hs
  · intro s states t _ _ ht
    exact ht

/-- More steps than the loop takes to its end change nothing. -/
theorem run_eq_of_done {n m : Nat} {s : σ} (h : l.done (l.run n s) = true) (hle : n ≤ m) :
    l.run m s = l.run n s := by
  induction n generalizing m s with
  | zero => exact run_of_done h m
  | succ n ih =>
    cases hs : l.done s with
    | true => rw [run_of_done hs, run_of_done hs]
    | false =>
      obtain ⟨m, rfl⟩ : ∃ k, m = k + 1 := ⟨m - 1, by omega⟩
      rw [run_succ hs] at h ⊢
      rw [run_succ hs]
      exact ih h (Nat.le_of_succ_le_succ hle)

/-- The loop never takes more steps than the measure says. -/
theorem length_visited_le (hl : l.Descends I measure) (fuel : Nat) {s : σ} (h : I s) :
    (l.visited fuel s).length ≤ measure s := by
  induction fuel generalizing s with
  | zero => exact Nat.zero_le _
  | succ fuel ih =>
    cases hs : l.done s with
    | true =>
      rw [visited_of_done hs]
      exact Nat.zero_le _
    | false =>
      have hle := ih (hl.keeps s hs h)
      have := hl.lt s hs h
      rw [visited_succ hs, List.length_cons]
      omega

/-- Wherever the loop takes a step, the state is as it should be; it takes no more than `n` steps,
and after so many it is done. -/
structure Bounded (l : Loop σ) (J : σ → Prop) (n : Nat) (s : σ) : Prop where
  holds : ∀ fuel, ∀ s' ∈ l.visited fuel s, J s'
  length_le : ∀ fuel, (l.visited fuel s).length ≤ n
  ends : l.done (l.run n s) = true

theorem Descends.bounded {J : σ → Prop} (hl : l.Descends I measure)
    (hJ : ∀ s, l.done s = false → I s → J s) {n : Nat} {s : σ} (h : I s) (hn : measure s ≤ n) :
    l.Bounded J n s := by
  refine ⟨?_, ?_, done_run hl h hn⟩
  · intro fuel s' hs'
    obtain ⟨hI, hdone⟩ := visited_invariant hl.keeps h hs'
    exact hJ s' hdone hI
  · intro fuel
    exact Nat.le_trans (length_visited_le hl fuel h) hn

end Loop

end Tint
