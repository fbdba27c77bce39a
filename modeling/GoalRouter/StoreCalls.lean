import GoalRouter.Application
import GoalRouter.TurnCalls

namespace GoalRouter
open Library
set_option autoImplicit true

variable {host : Host}

/-- Calls that look something up, add to the event log or leave a note. -/
def Call.ofRecords : Call → Bool
  | .inspect _ | .availableModels | .newRunId | .now | .loadSchema | .appendEvent _ _ | .note _ =>
    true
  | _ => false

/-- These, and calls that read or write what is stored of a run. -/
def Call.ofStore : Call → Bool
  | .create _ | .load _ | .save _ | .writeReport _ _ => true
  | c => c.ofRecords

/-- The program reads and writes no stored state, takes no lease and runs no turn. -/
abbrev Records (p : Program α) : Prop := p.Only fun c => c.ofRecords = true

/-- The program takes no lease and runs no turn. -/
abbrev Stores (p : Program α) : Prop := p.Only fun c => c.ofStore = true

/-- The program reads and writes no stored state and takes no lease. -/
abbrev Consults (p : Program α) : Prop := p.Only fun c => (c.ofTurns || c.ofRecords) = true

/-- The program takes no lease. -/
abbrev Works (p : Program α) : Prop := p.Only fun c => (c.ofTurns || c.ofStore) = true

theorem Records.stores {p : Program α} (h : Records p) : Stores p := by
  apply Prog.Only.mono h
  intro c hc
  cases c <;> first | rfl | cases hc

theorem Stores.works {p : Program α} (h : Stores p) : Works p :=
  Prog.Only.mono h fun _ hc => Bool.or_eq_true_iff.2 (.inr hc)

theorem RunsTurns.works {p : Program α} (h : RunsTurns p) : Works p :=
  Prog.Only.mono h fun _ hc => Bool.or_eq_true_iff.2 (.inl hc)

theorem Consults.works {p : Program α} (h : Consults p) : Works p := by
  apply Prog.Only.mono h
  intro c hc
  cases c <;> first | rfl | cases hc

theorem Records.consults {p : Program α} (h : Records p) : Consults p :=
  Prog.Only.mono h fun _ hc => Bool.or_eq_true_iff.2 (.inr hc)

theorem RunsTurns.consults {p : Program α} (h : RunsTurns p) : Consults p :=
  Prog.Only.mono h fun _ hc => Bool.or_eq_true_iff.2 (.inl hc)

section Ports

theorem appendEvent_records (rid : Text) (e : RunEvent) : Records (appendEvent host rid e) := by
  apply (Prog.Only.ofExcept _).bind
  exact fun _ => Prog.Only.invoke rfl

theorem recordEvent_records (s : RunState) (event : Text) (workItemId : Option Text)
    (details : Fields) : Records (recordEvent host s event workItemId details) := by
  apply Prog.Only.bind
  · exact Prog.Only.invoke rfl
  · exact fun _ => appendEvent_records _ _

theorem selectRunId_records (rid : Option Text) : Records (selectRunId rid) := by
  cases rid with
  | none => exact Prog.Only.invoke rfl
  | some t =>
    cases t with
    | nil => exact Prog.Only.invoke rfl
    | cons => trivial

theorem createRun_stores (s : RunState) : Stores (createRun host s) := by
  apply (Prog.Only.ofExcept _).bind
  exact fun _ => Prog.Only.invoke rfl

theorem saveRun_stores (s : RunState) : Stores (saveRun host s) := by
  apply (Prog.Only.ofExcept _).bind
  exact fun _ => Prog.Only.invoke rfl

theorem loadRun_stores (rid : Text) (digest : Option Text) (acknowledge : Bool) :
    Stores (loadRun host rid digest acknowledge) := by
  apply (Prog.Only.ofExcept _).bind
  intro _
  apply Prog.Only.bind
  · exact Prog.Only.invoke rfl
  intro s
  cases digest with
  | none => trivial
  | some digest =>
    simp only
    split <;> trivial

theorem writeReport_stores (s : RunState) : Stores (writeReport host s) := by
  apply (Prog.Only.ofExcept _).bind
  intro content
  apply Prog.Only.bind
  · apply (Prog.Only.ofExcept _).bind
    exact fun _ => Prog.Only.invoke rfl
  · exact fun _ => trivial

theorem reported_stores (s : RunState) : Stores (do let _ ← writeReport host s; return s) :=
  (writeReport_stores s).bind fun _ => trivial

theorem report_stores (rid : Text) : Stores (do
    let s ← loadRun host rid none false
    writeReport host s) :=
  (loadRun_stores rid none false).bind writeReport_stores

end Ports

section Scheduler

theorem persistResult_stores (s : RunState) (r : WorkResult) :
    Stores (persistResult host s r) := by
  apply (saveRun_stores _).bind
  intro _
  apply Prog.Only.bind
  · exact Prog.Only.invoke rfl
  intro time
  apply (appendEvent_records _ _).stores.bind
  exact fun _ => trivial

theorem persistResults_stores (results : List WorkResult) (s : RunState) :
    Stores (results.foldlM (persistResult host) s) :=
  .foldlM persistResult_stores results s

theorem persistBlocked_stores (s : RunState) (blocked : List WorkItem) :
    Stores (persistBlocked host s blocked) :=
  .foldlM (fun _ _ => persistResult_stores _ _) blocked s

theorem forM_validated_records (s : RunState) (ready : List WorkItem) :
    Records (ready.forM fun item => note (.validated s item.id)) := by
  induction ready with
  | nil => trivial
  | cons item ready ih =>
    apply Prog.Only.bind
    · exact Prog.Only.invoke rfl
    · exact fun _ => ih

theorem runReaders_works (s : RunState) (batch : List WorkItem) :
    Works (runReaders host s batch) := by
  apply (runReadBatch_turns _ batch).works.bind
  exact fun results => (persistResults_stores results _).works

theorem writerBody_works (s : RunState) (item : WorkItem) : Works (writerBody host s item) := by
  apply (Prog.Only.ofExcept _).bind
  intro _
  apply Prog.Only.bind
  · exact Prog.Only.invoke rfl
  intro _
  apply (runOne_turns _ item).works.bind
  exact fun r => (persistResult_stores _ r).works

theorem conclude_stores (s : RunState) : Stores (conclude host s) := by
  apply Prog.Only.bind
  · exact Prog.Only.invoke rfl
  intro _
  apply (Prog.Only.ofExcept _).bind
  intro status
  simp only
  split
  · trivial
  · apply (saveRun_stores _).bind
    exact fun _ => trivial

end Scheduler

section Operations

theorem runTurn_turns (t : Turn) : RunsTurns (runTurn t) := by
  apply Prog.Only.bind
  · exact Prog.Only.invoke rfl
  intro _
  apply Prog.Only.bind
  · exact Prog.Only.invoke rfl
  · exact fun v => Prog.Only.ofExcept _

theorem plan_consults (config : RouterConfig) (objective : Objective)
    (repository : RepositoryContext) : Consults (plan host config objective repository) := by
  apply Prog.Only.bind
  · exact Prog.Only.invoke rfl
  intro _
  apply (Prog.Only.ofExcept _).bind
  intro decision
  apply (runTurn_turns _).consults.bind
  intro result
  split
  · trivial
  · split
    · split
      · trivial
      · apply (runTurn_turns _).consults.bind
        exact fun _ => Prog.Only.ofExcept _
    · trivial

variable (app : Application host)

theorem validateModelInventory_records : Records app.validateModelInventory := by
  apply Prog.Only.bind
  · exact Prog.Only.invoke rfl
  · exact fun _ => Prog.Only.ofExcept _

theorem models_records : Records app.models := by
  apply Prog.Only.bind
  · exact Prog.Only.invoke rfl
  intro available
  apply (Prog.Only.ofExcept _).bind
  exact fun _ => trivial

theorem routeTask_records (task prompt : Text) (paths : List PurePath) :
    Records (app.routeTask task prompt paths) := by
  apply (validateModelInventory_records app).bind
  intro _
  apply (Prog.Only.ofExcept _).bind
  exact fun _ => trivial

theorem objectiveOf_records (path : PurePath) (prompt : Text) (task : Option Text) (rid : Text) :
    Records (app.objectiveOf path prompt task rid) := by
  apply Prog.Only.bind
  · exact Prog.Only.invoke rfl
  · exact fun _ => trivial

theorem appendCompletion_stores (s : RunState) : Stores (app.appendCompletion s) := by
  apply (Prog.Only.ofExcept _).bind
  intro decision
  apply (saveRun_stores _).bind
  intro _
  apply (recordEvent_records _ _ _ _).stores.bind
  exact fun _ => trivial

theorem acknowledgeChange_stores (s : RunState) : Stores (app.acknowledgeChange s) := by
  rw [Application.acknowledgeChange]
  split
  · apply (Prog.Only.ofExcept _).bind
    intro s
    apply Prog.Only.bind
    · exact Prog.Only.invoke rfl
    intro _
    apply (saveRun_stores _).bind
    intro _
    apply (recordEvent_records _ _ _ _).stores.bind
    exact fun _ => trivial
  · trivial

theorem approveUnlocked_stores (rid workItemId approvedBy : Text) :
    Stores (app.approveUnlocked rid workItemId approvedBy) := by
  apply (loadRun_stores _ _ _).bind
  intro s
  apply Prog.Only.bind
  · exact Prog.Only.invoke rfl
  intro approvedAt
  apply (Prog.Only.ofExcept _).bind
  intro s
  apply Prog.Only.bind
  · exact Prog.Only.invoke rfl
  intro _
  apply (saveRun_stores _).bind
  intro _
  apply (recordEvent_records _ _ _ _).stores.bind
  intro _
  apply (writeReport_stores _).bind
  exact fun _ => trivial

end Operations

end GoalRouter
