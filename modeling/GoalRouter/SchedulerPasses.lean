import GoalRouter.SchedulerRefinement

namespace GoalRouter
open Library
set_option autoImplicit true

namespace RunState

/-- The state after its newly blocked items have got their results. -/
def blockAll (s : RunState) : RunState :=
  (s.newlyBlocked.map blockedResult).foldl withResult s

end RunState

def WorkItem.isWriter (item : WorkItem) : Bool := item.access = .workspaceWrite

/-- What the main loop makes of a state, with the states its passes begin with. -/
inductive Passes (host : Host) (maxRead : Nat) :
    Nat → RunState → List RunState → RunState → Prop where
  | spent (s : RunState) : Passes host maxRead 0 s [] s
  | idle (n : Nat) (hd : s.blockAll.dispatchable host = []) :
      Passes host maxRead (n + 1) s [s] s.blockAll
  | writer (hf : (s.blockAll.dispatchable host).find? WorkItem.isWriter = some item)
      (hr : Ended item.id r)
      (h : Passes host maxRead n ({ s.blockAll with status := .running }.withResult r) states s') :
      Passes host maxRead (n + 1) s (s :: states) s'
  | readers (hd : s.blockAll.dispatchable host ≠ [])
      (hf : (s.blockAll.dispatchable host).find? WorkItem.isWriter = none)
      (hr : BatchEnded ((s.blockAll.dispatchable host).take maxRead) results)
      (h : Passes host maxRead n
        (results.foldl RunState.withResult { s.blockAll with status := .running }) states s') :
      Passes host maxRead (n + 1) s (s :: states) s'

/-- The state a pass begins with. -/
def Event.passed? : Event → Option RunState
  | .answered (.note (.passing s)) _ => some s
  | _ => none

/-- The states that passes began with, newest first. -/
def World.passed (w : World) : List RunState := w.log.filterMap Event.passed?

def Call.isPassing : Call → Bool
  | .note (.passing _) => true
  | _ => false

section Execution

variable {host : Host}

theorem Next.passed (h : Next host w c r w') (hc : c.isPassing = false) : w'.passed = w.passed := by
  have hpush {w : World} (r : Except PyError (Val c)) : (w.push c r).passed = w.passed := by
    rw [World.passed, World.push_log, List.filterMap_cons]
    cases c with
    | note n =>
      cases n with
      | passing => cases hc
      | _ => rfl
    | _ => rfl
  cases h <;> exact hpush _

/-- Run from a world that has seen the given passes, the program begins none, and returns with
`Q`. -/
abbrev Within (host : Host) (passed : List RunState) (Q : α → Prop) (p : Program α) (w : World) :
    Prop :=
  p.Safe (Next host) (fun _ => True) (fun a w' => w'.passed = passed ∧ Q a) (fun _ _ => True) w

variable {passed : List RunState}

theorem invoke_within (hw : w.passed = passed) (hc : c.isPassing = false) :
    Within host passed (fun v => ∃ w w', Next host w c (.ok v) w') (invoke c) w := by
  apply Prog.Safe.invoke
  intro r w' hn
  cases r with
  | ok v => exact ⟨trivial, (hn.passed hc).trans hw, w, w', hn⟩
  | error e => exact ⟨trivial, trivial⟩

theorem ofExcept_within (hw : w.passed = passed) (x : Except PyError α) :
    Within host passed (fun a => x = .ok a) (Prog.ofExcept x) w :=
  Prog.Safe.ofExcept (fun _ ha => ⟨hw, ha⟩) fun _ _ => trivial

theorem saveRun_within (hw : w.passed = passed) (s : RunState) :
    Within host passed (fun _ => True) (saveRun host s) w := by
  apply (ofExcept_within hw _).bind
  rintro _ w₁ ⟨h₁, _⟩
  exact (invoke_within h₁ rfl).mono (fun _ _ h => ⟨h.1, trivial⟩) fun _ _ h => h

theorem persistResult_within (hw : w.passed = passed) (s : RunState) (r : WorkResult) :
    Within host passed (fun s' => s' = s.withResult r) (persistResult host s r) w := by
  apply (saveRun_within hw _).bind
  rintro _ w₁ ⟨h₁, _⟩
  apply (invoke_within h₁ rfl).bind
  rintro _ w₂ ⟨h₂, _⟩
  apply Prog.Safe.bind (Q := fun _ w' => w'.passed = passed)
  · apply (ofExcept_within h₂ _).bind
    rintro _ w₃ ⟨h₃, _⟩
    exact (invoke_within h₃ rfl).mono (fun _ _ h => h.1) fun _ _ h => h
  · exact fun _ _ h => ⟨h, rfl⟩

theorem persistResults_within (hw : w.passed = passed) (results : List WorkResult) (s : RunState) :
    Within host passed (fun s' => s' = results.foldl RunState.withResult s)
      (results.foldlM (persistResult host) s) w := by
  induction results generalizing s w with
  | nil => exact ⟨hw, rfl⟩
  | cons r results ih =>
    apply (persistResult_within hw s r).bind
    rintro _ w₁ ⟨h₁, rfl⟩
    exact ih h₁ _

theorem persistBlocked_within (hw : w.passed = passed) (s : RunState) :
    Within host passed (fun s' => s' = s.blockAll) (persistBlocked host s s.newlyBlocked) w := by
  have h := @persistResults_within host passed w hw (s.newlyBlocked.map blockedResult) s
  rw [List.foldlM_map] at h
  exact h

theorem awaitTurn_within (hw : w.passed = passed) (b : Bool) (running : List Turn) :
    Within host passed (fun v => v.1 ∈ running ∧ v.1.Ends v.2)
      (invoke (.awaitTurn b running)) w := by
  apply (invoke_within hw rfl).mono
  · rintro v w' ⟨h, _, _, hn⟩
    cases hn with
    | awaitTurn hm he => exact ⟨h, hm, he⟩
  · exact fun _ _ h => h

theorem drain_within (hw : w.passed = passed) (n : Nat) {running : Running} {results : Collected}
    (hr : AllEnded results) (failed : Bool) :
    Within host passed (fun v => AllEnded v.1) (drain n running results failed) w := by
  induction n generalizing w running results failed with
  | zero => exact ⟨hw, hr⟩
  | succ n ih =>
    apply (awaitTurn_within hw _ _).bind
    rintro ⟨t, outcome⟩ w₁ ⟨h₁, _, he⟩
    exact ih h₁ (hr.collect he _) _

theorem gather_within (hw : w.passed = passed) (n : Nat) {running : Running} {results : Collected}
    (hr : AllEnded results) : Within host passed AllEnded (gather n running results) w := by
  induction n generalizing w running results with
  | zero => exact ⟨hw, hr⟩
  | succ n ih =>
    rw [gather]
    apply Prog.Safe.bind (Q := fun v w' => w'.passed = passed ∧
      ∀ t outcome, v = .ok (t, outcome) → Turn.Ends t outcome)
    · apply Prog.Safe.mono (Q := fun v w' => w'.passed = passed ∧
        ∀ t outcome, v = .ok (t, outcome) → Turn.Ends t outcome)
        (R := fun _ _ => False)
      · intro r w' hn
        have hp := (hn.passed rfl).trans hw
        cases r with
        | error e => exact ⟨trivial, hp, fun _ _ h => by cases h⟩
        | ok v =>
          cases hn with
          | awaitTurn _ he => exact ⟨trivial, hp, fun _ _ h => by cases h; exact he⟩
      · exact fun _ _ h => h
      · exact fun _ _ h => h.elim
    · rintro v w' ⟨hw, he⟩
      cases v with
      | error e =>
        apply (drain_within hw (n + 1) hr false).bind
        rintro ⟨results', failed⟩ w₁ ⟨h₁, hr⟩
        cases failed with
        | true => exact ⟨h₁, hr⟩
        | false => exact trivial
      | ok v =>
        obtain ⟨t, outcome⟩ := v
        have hc := hr.collect (he t outcome rfl) running
        simp only
        split
        · apply (drain_within hw n hc true).bind
          exact fun _ _ h => h
        · exact ih hw hc

theorem note_within (hw : w.passed = passed) {n : Note} (hn : (Call.note n).isPassing = false) :
    Within host passed (fun _ => True) (note n) w :=
  (invoke_within hw hn).mono (fun _ _ h => ⟨h.1, trivial⟩) fun _ _ h => h

theorem runOne_within (hw : w.passed = passed) (s : RunState) (item : WorkItem) :
    Within host passed (Ended item.id) (runOne host s item) w := by
  rw [runOne]
  cases ht : dispatchTurn host s item with
  | error e => exact ⟨hw, rfl, .inr rfl⟩
  | ok t =>
    apply (note_within hw rfl).bind
    rintro _ w₁ ⟨h₁, _⟩
    apply (invoke_within h₁ rfl).bind
    rintro _ w₂ ⟨h₂, _⟩
    apply (awaitTurn_within h₂ false [t]).bind
    rintro ⟨t', outcome⟩ w₃ ⟨h₃, _, he⟩
    cases outcome with
    | ok r => exact ⟨h₃, readerResult_ended he item⟩
    | error e =>
      simp only
      split
      · exact trivial
      · exact ⟨h₃, rfl, .inr rfl⟩

theorem startBatch_within (hw : w.passed = passed) (s : RunState) (items : List WorkItem)
    {running : Running} {results : Collected} (hr : AllEnded results) (failed : Bool) :
    Within host passed (fun v => AllEnded v.2.1)
      (startBatch host s items running results failed) w := by
  induction items generalizing w running results failed with
  | nil => exact ⟨hw, hr⟩
  | cons item items ih =>
    rw [startBatch]
    cases ht : dispatchTurn host s item with
    | error e =>
      have hi : Ended item.id (readerResult item (.error e)) := ⟨rfl, .inr rfl⟩
      exact ih hw (hr.set hi) true
    | ok t =>
      apply (note_within hw rfl).bind
      rintro _ w₁ ⟨h₁, _⟩
      apply (invoke_within h₁ rfl).bind
      rintro _ w₂ ⟨h₂, _⟩
      exact ih h₂ hr failed

theorem mapM_results_within (hw : w.passed = passed) {results : Collected} (hr : AllEnded results)
    (items : List WorkItem) :
    Within host passed (BatchEnded items)
      (items.mapM fun item => match results.get? item.id with
        | some r => pure r
        | none => raise ⟨.keyError, host.repr item.id⟩) w := by
  induction items with
  | nil => exact ⟨hw, .nil⟩
  | cons item items ih =>
    rw [List.mapM_cons]
    cases hg : results.get? item.id with
    | none => exact trivial
    | some r =>
      simp only [pure_bind]
      apply ih.bind
      rintro rs w' ⟨hw, hrs⟩
      exact ⟨hw, .cons (hr _ _ hg) hrs⟩

theorem runReadBatch_within (hw : w.passed = passed) (s : RunState) (items : List WorkItem) :
    Within host passed (BatchEnded items) (runReadBatch host s items) w := by
  have hempty : AllEnded ∅ := fun _ _ hg => by cases hg
  apply (startBatch_within hw s items hempty false).bind
  rintro ⟨running, results, failed⟩ w₁ ⟨h₁, hr⟩
  cases failed with
  | true =>
    apply Prog.Safe.bind (Q := fun v w' => w'.passed = passed ∧ AllEnded v)
    · apply (drain_within h₁ _ hr true).bind
      exact fun _ _ h => h
    · rintro results w₂ ⟨h₂, hr⟩
      exact mapM_results_within h₂ hr items
  | false =>
    apply (gather_within h₁ _ hr).bind
    rintro results w₂ ⟨h₂, hr⟩
    exact mapM_results_within h₂ hr items

theorem runReaders_within (hw : w.passed = passed) (s : RunState) (batch : List WorkItem) :
    Within host passed (fun s' => ∃ results, BatchEnded batch results ∧
      s' = results.foldl RunState.withResult { s with status := .running })
      (runReaders host s batch) w := by
  apply (runReadBatch_within hw _ batch).bind
  rintro results w₁ ⟨h₁, hr⟩
  apply (persistResults_within h₁ results _).mono
  · rintro s' w' ⟨h, rfl⟩
    exact ⟨h, results, hr, rfl⟩
  · exact fun _ _ h => h

theorem writerBody_within (hw : w.passed = passed) (s : RunState) (item : WorkItem) :
    Within host passed (fun s' => ∃ r, Ended item.id r ∧
      s' = { s with status := .running }.withResult r) (writerBody host s item) w := by
  apply (ofExcept_within hw _).bind
  rintro _ w₁ ⟨h₁, _⟩
  apply (note_within h₁ rfl).bind
  rintro _ w₂ ⟨h₂, _⟩
  apply (runOne_within h₂ _ item).bind
  rintro r w₃ ⟨h₃, hr⟩
  apply (persistResult_within h₃ _ r).mono
  · rintro s' w' ⟨h, rfl⟩
    exact ⟨h, r, hr, rfl⟩
  · exact fun _ _ h => h

theorem leasedWriter_within (hw : w.passed = passed) (s : RunState) (item : WorkItem) :
    Within host passed (fun s' => ∃ r, Ended item.id r ∧
      s' = { s with status := .running }.withResult r) (do
        invoke (.acquireProject s.objective.projectPath)
        (writerBody host s item).ensure (invoke (.releaseProject s.objective.projectPath))) w := by
  apply (invoke_within hw rfl).bind
  rintro _ w₁ ⟨h₁, _⟩
  apply (writerBody_within h₁ s item).ensure
  · rintro s' w₂ ⟨h₂, hs⟩
    exact (invoke_within h₂ rfl).mono (fun _ _ h => ⟨h.1, hs⟩) fun _ _ h => h
  · intro e w₂ _
    apply Prog.Safe.invoke
    intro r w' _
    cases r <;> exact ⟨trivial, trivial⟩

theorem runWriter_within (hw : w.passed = passed) (s : RunState) (item : WorkItem) :
    Within host passed (fun s' => ∃ r, Ended item.id r ∧
      s' = { s with status := .running }.withResult r) (runWriter host s item) w := by
  rw [runWriter]
  split
  · simp only [bind_assoc, pure_bind]
    apply (saveRun_within hw _).bind
    rintro _ w₁ ⟨h₁, _⟩
    exact leasedWriter_within h₁ { s with status := .planned } item
  · exact leasedWriter_within hw s item

theorem forM_validated_within (hw : w.passed = passed) (s : RunState) (ready : List WorkItem) :
    Within host passed (fun _ => True) (ready.forM fun item => note (.validated s item.id)) w := by
  induction ready generalizing w with
  | nil => exact ⟨hw, trivial⟩
  | cons item ready ih =>
    apply (note_within hw rfl).bind
    rintro _ w₁ ⟨h₁, _⟩
    exact ih h₁

theorem runLoop_passes (maxRead n : Nat) (s : RunState) (w : World) :
    (runLoop host maxRead n s).Safe (Next host) (fun _ => True) (fun s' w' => ∃ states,
      Passes host maxRead n s states s' ∧ w'.passed = states.reverse ++ w.passed)
      (fun _ _ => True) w := by
  induction n generalizing s w with
  | zero => exact ⟨[], .spent s, rfl⟩
  | succ n ih =>
    rw [runLoop]
    apply Prog.Safe.bind (Q := fun _ w' => w'.passed = s :: w.passed)
    · apply Prog.Safe.invoke
      intro r w' hn
      cases hn with
      | raises hc => cases hc
      | note => exact ⟨trivial, rfl⟩
    rintro _ w₁ h₁
    apply (persistBlocked_within h₁ s).bind
    rintro _ w₂ ⟨h₂, rfl⟩
    have next {s₁ : RunState} {w₃ : World} (h₃ : w₃.passed = s :: w.passed)
        (hp : ∀ states s', Passes host maxRead n s₁ states s' →
          Passes host maxRead (n + 1) s (s :: states) s') :
        (runLoop host maxRead n s₁).Safe (Next host) (fun _ => True) (fun s' w' => ∃ states,
          Passes host maxRead (n + 1) s states s' ∧ w'.passed = states.reverse ++ w.passed)
          (fun _ _ => True) w₃ := by
      apply (ih s₁ w₃).mono
      · rintro s' w' ⟨states, h, hw⟩
        refine ⟨s :: states, hp states s' h, ?_⟩
        rw [hw, h₃, List.reverse_cons, List.append_assoc, List.singleton_append]
      · exact fun _ _ h => h
    simp only
    split
    · rename_i hd
      exact ⟨[s], .idle n hd, h₂⟩
    · rename_i hd
      apply (forM_validated_within h₂ _ _).bind
      rintro _ w₃ ⟨h₃, _⟩
      split
      · rename_i item hf
        apply (runWriter_within h₃ _ item).bind
        rintro _ w₄ ⟨h₄, r, hr, rfl⟩
        exact next h₄ fun states s' => .writer hf hr
      · rename_i hf
        apply (runReaders_within h₃ _ _).bind
        rintro _ w₄ ⟨h₄, results, hr, rfl⟩
        exact next h₄ fun states s' => .readers hd hf hr

end Execution

end GoalRouter
