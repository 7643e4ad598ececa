import Mathlib.Data.List.Induction
import Mathlib.Data.Set.Card
import Tint.Proofs.Editor.Steps
set_option autoImplicit false

/-!
# Sessions over whole runs

Editors are built once per session, whatever else goes on in a workspace.  A session is set up by its
first setup or by the first highlighter that is made through it, and by nothing else; each session
that is set up costs one build, and nothing else builds (`Workspace.builds_run`).

The list of sessions carries this through a run: it names each session that has been opened, once,
and is as long as the count of builds (`Workspace.SessionsFit`).
-/

namespace Tint

namespace Workspace

/-- One of the steps opens the session. -/
def OpenedBy (steps : List Step) (session : Nat) : Prop :=
  ∃ s ∈ steps, s.session = session ∧ s.opens = true

theorem openedBy_append_singleton {steps : List Step} {s : Step} {session : Nat} :
    OpenedBy (steps ++ [s]) session ↔
      OpenedBy steps session ∨ (s.session = session ∧ s.opens = true) := by
  simp only [OpenedBy, List.mem_append, List.mem_singleton, or_and_right, exists_or,
    exists_eq_left]

/-- The sessions after some steps are those that the steps have opened, and each was built once. -/
structure SessionsFit (steps : List Step) (w : Workspace) : Prop where
  mem_iff : ∀ session, session ∈ w.sessions ↔ OpenedBy steps session
  nodup : w.sessions.Nodup
  builds_eq : w.page.builds = w.sessions.length

namespace SessionsFit

variable {steps : List Step} {w : Workspace}

theorem step (hw : SessionsFit steps w) (s : Step) :
    SessionsFit (steps ++ [s]) (w.step s).1 := by
  obtain ⟨hsessions, hbuilds⟩ := w.sessions_step s
  cases hopens : s.opens with
  | false =>
    rw [hopens, if_neg Bool.false_ne_true] at hsessions hbuilds
    refine ⟨fun session => ?_, hsessions ▸ hw.nodup, ?_⟩
    · rw [hsessions, hw.mem_iff, openedBy_append_singleton, hopens]
      simp
    · rw [hsessions, hbuilds, hw.builds_eq]
  | true =>
    rw [hopens, if_pos rfl, ensureInitialized] at hsessions hbuilds
    cases hmem : w.isInitialized s.session with
    | true =>
      rw [hmem, if_pos rfl] at hsessions hbuilds
      have hopened : OpenedBy steps s.session :=
        (hw.mem_iff _).1 (List.contains_iff_mem.1 hmem)
      refine ⟨fun session => ?_, hsessions ▸ hw.nodup, ?_⟩
      · rw [hsessions, hw.mem_iff, openedBy_append_singleton]
        refine ⟨.inl, ?_⟩
        rintro (h | ⟨rfl, -⟩)
        · exact h
        · exact hopened
      · rw [hsessions, hbuilds, hw.builds_eq]
    | false =>
      rw [hmem, if_neg Bool.false_ne_true] at hsessions hbuilds
      have hnew : s.session ∉ w.sessions := fun h => by
        rw [isInitialized, List.contains_iff_mem.2 h] at hmem
        cases hmem
      refine ⟨fun session => ?_, ?_, ?_⟩
      · rw [hsessions, List.mem_cons, hw.mem_iff, openedBy_append_singleton, hopens]
        constructor
        · rintro (rfl | h)
          · exact .inr ⟨rfl, rfl⟩
          · exact .inl h
        · rintro (h | ⟨rfl, -⟩)
          · exact .inr h
          · exact .inl rfl
      · rw [hsessions]
        exact hw.nodup.cons hnew
      · rw [hsessions, hbuilds, List.length_cons, ← hw.builds_eq]
        rfl

theorem isInitialized_iff (hw : SessionsFit steps w) (session : Nat) :
    w.isInitialized session = true ↔ OpenedBy steps session :=
  List.contains_iff_mem.trans (hw.mem_iff session)

theorem builds_eq_ncard (hw : SessionsFit steps w) :
    w.page.builds = {session | w.isInitialized session = true}.ncard := by
  have hset : {session | w.isInitialized session = true} = (w.sessions.toFinset : Set Nat) := by
    ext session
    simp [isInitialized]
  rw [hset, Set.ncard_coe_finset, List.toFinset_card_of_nodup hw.nodup, hw.builds_eq]

end SessionsFit

theorem sessionsFit_run (elements : List (Text × Text)) (steps : List Step) :
    SessionsFit steps ((onPage elements).run steps) := by
  induction steps using List.reverseRecOn with
  | nil => exact ⟨fun session => by simp [OpenedBy, onPage], .nil, rfl⟩
  | append_singleton steps s ih =>
    rw [run_append]
    exact ih.step s

/-- After any steps on a page, with any number of sessions: the sessions that are set up are those
with a setup or a highlighter made through them, the editors have been built once for each of them,
a setup says that it has built them if it is the first such step of its session, and no other step
builds them. -/
theorem builds_run (elements : List (Text × Text)) (steps : List Step) :
    let w := (onPage elements).run steps
    (∀ session, w.isInitialized session = true ↔
      ∃ s ∈ steps, s.session = session ∧ s.opens = true) ∧
    w.page.builds = {session | w.isInitialized session = true}.ncard ∧
    (∀ session, ∃ outcome, (w.step ⟨session, .setup⟩).2 = .setup outcome ∧
      (outcome = .initialized ↔ ∀ s ∈ steps, s.session = session → s.opens = false)) ∧
    ∀ s : Step, s.opens = false → (w.step s).1.page.builds = w.page.builds := by
  intro w
  have hw : SessionsFit steps w := sessionsFit_run elements steps
  refine ⟨hw.isInitialized_iff, hw.builds_eq_ncard, fun session => ⟨_, rfl, ?_⟩, ?_⟩
  · have hfirst : (if w.isInitialized session then Setup.alreadyInitialized else .initialized) =
        .initialized ↔ ¬ w.isInitialized session = true := by
      cases w.isInitialized session <;> simp
    rw [hfirst, hw.isInitialized_iff]
    simp [OpenedBy]
  · intro s hs
    obtain ⟨-, hbuilds⟩ := w.sessions_step s
    rw [hbuilds, hs]
    rfl

end Workspace

end Tint
