import GoalRouter.OperationRefinement
import GoalRouter.ScriptedWorld

namespace GoalRouter
open Library
set_option autoImplicit true

namespace RunState

/-- The completion review is part of the run and has succeeded. -/
def isReviewed (s : RunState) : Bool :=
  s.workItems.contains completionId && s.hasSucceeded completionId

/-- A completed objective run has been reviewed. -/
def isGated (s : RunState) : Bool :=
  s.objective.explicitTask.isSome || s.status ≠ .completed || s.isReviewed

/-- Unless the run is explicit or has its review, some work item has not succeeded. -/
def isOpen (s : RunState) : Bool :=
  s.objective.explicitTask.isSome || s.workItems.contains completionId ||
    s.workItems.keys.any fun k => !s.hasSucceeded k

end RunState

/-- The store is handed no completed objective run that has not been reviewed. -/
def Event.isGated : Event → Bool
  | .answered (.create s) _ | .answered (.save s) _ => s.isGated
  | _ => true

/-- Whenever the scheduler settles the status of an objective run without a completion review,
some work item has not succeeded. -/
def Event.concludesOpen : Event → Bool
  | .answered (.note (.concluding s)) _ => s.isOpen
  | _ => true

/-- As long as no status is settled between the last success and the review, the states of the
run are gated. -/
def Gated (log : List Event) (s : RunState) : Prop :=
  (∀ e ∈ log, e.concludesOpen = true) → s.isGated = true

theorem Gated.cons (h : Gated log s) (e : Event) : Gated (e :: log) s :=
  fun hc => h fun e he => hc e (List.mem_cons_of_mem _ he)

theorem isGated_iff {s : RunState} : s.isGated = true ↔ s.objective.explicitTask = none →
    s.status = .completed → completionId ∈ s.workItems.keys ∧
      s.hasSucceeded completionId = true := by
  cases ho : s.objective.explicitTask with
  | some task => simp [RunState.isGated, ho]
  | none =>
    simp [RunState.isGated, RunState.isReviewed, ho, Dict.contains_iff, or_iff_not_imp_left]

theorem gated_invariant (host : Host) : ValidInvariant host Gated where
  event _ h := h.cons _
  landed _ h := h.cons _
  fresh _ hf _ _ := by
    apply isGated_iff.2
    intro _ hs
    rw [hf.status] at hs
    cases hs
  loaded hv h hl hc := by
    rw [hv.load hl]
    apply isGated_iff.2
    intro ho hs
    have hr := isGated_iff.1 (h hc) (Option.map_eq_none_iff.1 ho) hs
    rw [RunState.mem_workItems_persisted, RunState.hasSucceeded_persisted]
    exact hr
  approved _ _ _ _ h ha := by
    obtain ⟨_, _, _, _, _, _, _, _, _, _, rfl⟩ := approve_ok ha
    exact h.cons _
  adopted _ _ _ h ha := by
    obtain ⟨_, rfl, _⟩ := RunState.adoptCurrentConfiguration_ok ha
    exact h.cons _
  blocked hv h hb hc := by
    apply isGated_iff.2
    intro ho hs
    have hr := isGated_iff.1 (h hc) ho hs
    exact ⟨hr.1, hv.succeeded_of_blocked hb hr.1 hr.2⟩
  finished _ h hf hc := by
    apply isGated_iff.2
    intro ho hs
    have hr := isGated_iff.1 (h hc) ho hs
    exact ⟨hr.1, RunState.Valid.succeeded_of_finished hf hr.2⟩
  statusSet _ _ hst _ := by
    apply isGated_iff.2
    intro _ hs
    rcases hst with rfl | rfl <;> cases hs
  concluded {_ s _} hv _ hn hf hc := by
    apply isGated_iff.2
    intro ho hs
    cases hs
    have hall := hv.succeeded_of_completed hf
    have hopen := hc _ hn
    simp only [Event.concludesOpen, RunState.isOpen, Bool.or_eq_true, Dict.contains_iff,
      List.any_eq_true, Bool.not_eq_true'] at hopen
    rcases hopen with (he | hm) | ⟨k, hk, hs⟩
    · rw [ho] at he
      cases he
    · exact ⟨hm, hall _ hm⟩
    · rw [hall k hk] at hs
      cases hs
  appended _ _ _ _ _ _ _ _ _ := by
    apply isGated_iff.2
    intro _ hs
    cases hs

/-- As long as the status of an objective run is never settled while all its work has succeeded
and the review is missing, no such run is saved as completed before its review has succeeded. -/
theorem saved_isGated (h : Reachable host w) (hc : ∀ e ∈ w.log, e.concludesOpen = true) :
    ∀ e ∈ w.log, e.isGated = true := by
  intro e hm
  obtain ⟨m, hw⟩ := h.alive
  obtain ⟨later, earlier, hl⟩ := List.append_of_mem hm
  obtain ⟨w₀, rfl, ho⟩ := hw.origin hl
  have hc₀ : ∀ e ∈ w₀.log, e.concludesOpen = true := by
    intro e he
    apply hc e
    rw [hl]
    exact List.mem_append_right _ (List.mem_cons_of_mem _ he)
  cases e with
  | began | replaced => rfl
  | answered c r =>
    cases c with
    | create s =>
      obtain ⟨app, hf⟩ := ho
      apply isGated_iff.2
      intro _ hs
      rw [hf.status] at hs
      cases hs
    | save s => exact (((gated_invariant host).kept ho).memory s rfl).2 hc₀
    | _ => rfl

/-- A run whose only item succeeds is saved as completed before its review is appended. -/
theorem completed_before_review :
    ¬∀ (host : Host) (w : World), Reachable host w → ∀ e ∈ w.log, e.isGated = true := by
  intro h
  have hw := (sampleScript singlePlan ["a"]).session_reachable plainApplication
    (.runObjective samplePath (text "Go") none) sampleWorld_reachable
  have hall := List.all_eq_true.2 (h sampleHost _ hw)
  exact absurd hall (by decide +kernel)

/-- A run of which an item fails meets the condition. -/
theorem dependentRun_isGated : dependentRun.log.all Event.isGated = true :=
  List.all_eq_true.2 (saved_isGated dependentRun_reachable
    (List.all_eq_true.1 (by decide +kernel)))

end GoalRouter
