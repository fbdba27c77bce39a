import GoalRouter.WorkScheduling

namespace GoalRouter
open Library
set_option autoImplicit true

variable {host : Host}

/-- Calls that start turns, wait for them or leave a note. -/
def Call.ofTurns : Call → Bool
  | .startTurn _ | .awaitTurn _ _ | .note _ => true
  | _ => false

/-- The program only runs turns. -/
abbrev RunsTurns (p : Program α) : Prop := p.Only fun c => c.ofTurns = true

theorem drain_turns (n : Nat) (running : Running) (results : Collected) (failed : Bool) :
    RunsTurns (drain n running results failed) := by
  induction n generalizing running results failed with
  | zero => trivial
  | succ n ih =>
    apply Prog.Only.bind
    · exact Prog.Only.invoke rfl
    · exact fun v => ih _ _ _

theorem gather_turns (n : Nat) (running : Running) (results : Collected) :
    RunsTurns (gather n running results) := by
  induction n generalizing running results with
  | zero => trivial
  | succ n ih =>
    rw [gather]
    apply Prog.Only.bind
    · apply Prog.Only.attempt
      exact Prog.Only.invoke rfl
    · intro r
      cases r with
      | error e =>
        apply (drain_turns _ _ _ _).bind
        intro v
        simp only
        split <;> trivial
      | ok v =>
        obtain ⟨t, outcome⟩ := v
        simp only
        split
        · apply (drain_turns _ _ _ _).bind
          exact fun _ => trivial
        · exact ih _ _

theorem runOne_turns (s : RunState) (item : WorkItem) : RunsTurns (runOne host s item) := by
  rw [runOne]
  split
  · trivial
  · apply Prog.Only.bind
    · exact Prog.Only.invoke rfl
    intro _
    apply Prog.Only.bind
    · exact Prog.Only.invoke rfl
    intro _
    apply Prog.Only.bind
    · exact Prog.Only.invoke rfl
    rintro ⟨t, outcome⟩
    cases outcome with
    | ok r => trivial
    | error e =>
      simp only
      split <;> trivial

theorem startBatch_turns (s : RunState) (items : List WorkItem) (running : Running)
    (results : Collected) (failed : Bool) :
    RunsTurns (startBatch host s items running results failed) := by
  induction items generalizing running results failed with
  | nil => trivial
  | cons item items ih =>
    rw [startBatch]
    split
    · exact ih _ _ _
    · apply Prog.Only.bind
      · exact Prog.Only.invoke rfl
      intro _
      apply Prog.Only.bind
      · exact Prog.Only.invoke rfl
      · exact fun _ => ih _ _ _

theorem mapM_results_only {P : Call → Prop} (results : Collected) (items : List WorkItem) :
    Prog.Only P (items.mapM fun item => match results.get? item.id with
      | some r => pure r
      | none => raise ⟨.keyError, host.repr item.id⟩) := by
  induction items with
  | nil => trivial
  | cons item items ih =>
    rw [List.mapM_cons]
    cases results.get? item.id with
    | none => trivial
    | some r =>
      simp only [pure_bind]
      exact ih.bind fun _ => trivial

theorem runReadBatch_turns (s : RunState) (items : List WorkItem) :
    RunsTurns (runReadBatch host s items) := by
  apply (startBatch_turns s items [] ∅ false).bind
  rintro ⟨running, results, failed⟩
  cases failed with
  | true =>
    apply Prog.Only.bind
    · exact (drain_turns _ _ _ _).bind fun _ => trivial
    · exact fun results => mapM_results_only results items
  | false =>
    apply (gather_turns _ _ _).bind
    exact fun results => mapM_results_only results items

end GoalRouter
