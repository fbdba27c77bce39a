import GoalRouter.ObjectivePlanning
import GoalRouter.WorkScheduling

namespace GoalRouter
open Library
set_option autoImplicit true

def completionId : Text := text "__goalrouter_completion_review__"

/-- One line for each result. -/
def completionSummaries (s : RunState) : Text :=
  joinTexts (text "\n") (s.results.sorted.entries.map fun e =>
    text "- " ++ e.1 ++ text ": " ++ orElseText (e.2.finalResponse.getD []) (text "(no response)"))

def completionItem (s : RunState) (task : Text) : WorkItem where
  id := completionId
  title := text "Independent completion review"
  instructions :=
    text ("Independently verify that the objective scope and required evidence are complete. " ++
      "Do not modify files. Report any missing verification explicitly.\n\n") ++
    text "Objective: " ++ s.objective.prompt ++ text "\n\nCompleted work:\n" ++
      completionSummaries s
  task := task
  phase := text "completion"
  dependencies := s.workItems.sorted.keys
  access := .readOnly
  affectedPaths := []
  expectedResult := text "An independent completion decision with evidence."
  verification := []
  confidence := PyFloat.one
  riskFlags := ∅

namespace RunState

/-- Every item but the completion item has succeeded, and there is one. -/
def baseWorkSucceeded (s : RunState) : Bool :=
  let baseIds := s.workItems.keys.filter (· ≠ completionId)
  baseIds ≠ [] && baseIds.all s.hasSucceeded

/-- Route every unfinished item anew; the ids are those still to be routed. -/
def reroute (host : Host) (config : RouterConfig) (s : RunState) :
    List (Text × WorkItem) → Except PyError RunState
  | [] => .ok s
  | (id, item) :: entries =>
    if s.isUnfinished id then
      route host config item none >>= fun decision =>
        reroute host config { s with routes := s.routes.set id decision } entries
    else reroute host config s entries

def adoptCurrentConfiguration (host : Host) (config : RouterConfig) (s : RunState) :
    Except PyError RunState :=
  (reroute host config s s.workItems.entries).map fun s =>
    { s with configurationDigest := config.digest, approvals := ∅ }

end RunState

section Helpers

variable (host : Host)

/-- `async with self._run_lease.acquire(run_id)`. -/
def withRunLease (runId : Text) (body : Program α) : Program α := do
  let _ ← validateRunId host runId
  invoke (.acquireRun runId)
  body.ensure (invoke (.releaseRun runId))

/-- `run_id or self._run_id_factory()`. -/
def selectRunId (runId : Option Text) : Program Text :=
  match runId with
  | none | some [] => invoke .newRunId
  | some t => pure t

def recordEvent (s : RunState) (event : Text) (workItemId : Option Text) (details : Fields) :
    Program Unit := do
  let timestamp ← invoke .now
  appendEvent host s.runId { timestamp, event, workItemId, details }

def writeReport (s : RunState) : Program Text := do
  let content ← host.render s
  writeReportText host s.runId content
  return content

end Helpers

/-- The application under an accepted configuration. -/
structure Application (host : Host) where
  accepted : AcceptedConfig host
  configPath : PurePath

namespace Application

variable {host : Host} (app : Application host)

abbrev config : RouterConfig := app.accepted.config

/-- The bound given to the scheduler. -/
def maxReadConcurrency : Nat := app.config.maximumReadConcurrency.toNat

def validateModelInventory : Program Unit := do
  let available ← invoke .availableModels
  validateModels app.config available

def models : Program (List Text) := do
  let available : List Text ← invoke .availableModels
  validateModels app.config available
  return available

def explicitItem (task prompt : Text) (affectedPaths : List PurePath) :
    Except PyError (WorkItem × RouteDecision) := do
  let provisional : WorkItem := {
    id := text "task"
    title := text "Run " ++ task
    instructions := prompt
    task
    phase := text "explicit"
    dependencies := []
    access := .readOnly
    affectedPaths
    expectedResult := text "The requested bounded task is complete."
    verification := []
    confidence := PyFloat.one
    riskFlags := ∅ }
  let decision ← route host app.config provisional (some task)
  let access : AccessMode :=
    if decision.sandbox = .workspaceWrite then .workspaceWrite else .readOnly
  return ({ provisional with access }, decision)

def routeTask (task prompt : Text) (affectedPaths : List PurePath) : Program RouteDecision := do
  app.validateModelInventory
  let (_, decision) ← app.explicitItem task prompt affectedPaths
  return decision

def objectiveOf (projectPath : PurePath) (prompt : Text) (explicitTask : Option Text)
    (runId : Text) : Program Objective := do
  let createdAt ← invoke .now
  return { id := runId, prompt, projectPath, explicitTask, configPath := app.configPath, createdAt }

/-- The state of a run before its first turn. -/
def initialState (objective : Objective) (repository : RepositoryContext)
    (workItems : Dict Text WorkItem) (routes : Dict Text RouteDecision) : RunState where
  schemaVersion := 1
  configurationDigest := app.config.digest
  objective := objective
  repository := repository
  workItems := workItems
  routes := routes
  results := ∅
  approvals := ∅
  status := .planned

def routeItems (items : List WorkItem) : Except PyError (Dict Text RouteDecision) := do
  let entries ← items.mapM fun item => do
    let decision ← route host app.config item none
    return (item.id, decision)
  return Dict.ofList entries

def planObjectiveUnlocked (projectPath : PurePath) (prompt runId : Text) : Program RunState := do
  let repository : RepositoryContext ← invoke (.inspect projectPath)
  app.validateModelInventory
  let objective ← app.objectiveOf repository.projectPath prompt none runId
  let items ← plan host app.config objective repository
  if items.any fun item => item.id = completionId then
    raise (plannerOutputError (text "Planner used reserved work-item ID " ++ completionId))
  else do
    let routes ← app.routeItems items
    let s := app.initialState objective repository
      (Dict.ofList (items.map fun item => (item.id, item))) routes
    createRun host s
    recordEvent host s (text "objective-planned") none []
    return s

def planObjective (projectPath : PurePath) (prompt : Text) (runId : Option Text) :
    Program RunState := do
  let selected ← selectRunId runId
  withRunLease host selected (app.planObjectiveUnlocked projectPath prompt selected)

def runTaskUnlocked (projectPath : PurePath) (task prompt : Text) (affectedPaths : List PurePath)
    (runId : Text) : Program RunState := do
  let repository : RepositoryContext ← invoke (.inspect projectPath)
  app.validateModelInventory
  let (item, decision) ← app.explicitItem task prompt affectedPaths
  let objective ← app.objectiveOf repository.projectPath prompt (some task) runId
  let s := app.initialState objective repository (Dict.ofList [(item.id, item)])
    (Dict.ofList [(item.id, decision)])
  createRun host s
  recordEvent host s (text "task-created") none []
  let s ← runReady host app.maxReadConcurrency s
  let _ ← writeReport host s
  return s

def runTask (projectPath : PurePath) (task prompt : Text) (affectedPaths : List PurePath)
    (runId : Option Text) : Program RunState := do
  let selected ← selectRunId runId
  withRunLease host selected (app.runTaskUnlocked projectPath task prompt affectedPaths selected)

def appendCompletion (s : RunState) : Program RunState := do
  let completion := completionItem s app.config.completionTask
  let decision ← route host app.config completion none
  let s := { s with
    workItems := s.workItems.set completion.id completion
    routes := s.routes.set completion.id decision
    status := .planned }
  saveRun host s
  recordEvent host s (text "completion-review-appended") none []
  return s

/-- The completion review of a run whose base work has succeeded. -/
def reviewCompletion (s : RunState) : Program RunState := do
  let s ← if s.workItems.contains completionId then pure s else app.appendCompletion s
  if s.results.contains completionId then return s
  else runReady host app.maxReadConcurrency s

def continueRun (s : RunState) : Program RunState := do
  let s ← runReady host app.maxReadConcurrency s
  let s ←
    if s.objective.explicitTask = none ∧ s.baseWorkSucceeded then app.reviewCompletion s
    else pure s
  let _ ← writeReport host s
  return s

def runObjective (projectPath : PurePath) (prompt : Text) (runId : Option Text) :
    Program RunState := do
  let selected ← selectRunId runId
  withRunLease host selected do
    let s ← app.planObjectiveUnlocked projectPath prompt selected
    app.continueRun s

def approveUnlocked (runId workItemId approvedBy : Text) : Program RunState := do
  let s ← loadRun host runId (some app.config.digest) false
  let approvedAt ← invoke .now
  let s ← approve host s workItemId approvedBy approvedAt
  note (.approved s workItemId)
  saveRun host s
  recordEvent host s (text "approval-recorded") (some workItemId)
    [(text "approved_by", .str approvedBy)]
  let _ ← writeReport host s
  return s

def approve (runId workItemId approvedBy : Text) : Program RunState :=
  withRunLease host runId (app.approveUnlocked runId workItemId approvedBy)

/-- Take over the current configuration where the state is bound to another. -/
def acknowledgeChange (s : RunState) : Program RunState :=
  if s.configurationDigest ≠ app.config.digest then do
    let s ← s.adoptCurrentConfiguration host app.config
    note (.adopted s)
    saveRun host s
    recordEvent host s (text "configuration-change-acknowledged") none []
    return s
  else pure s

def resumeUnlocked (runId : Text) (acknowledgeConfigurationChange : Bool) : Program RunState := do
  let s ← loadRun host runId (some app.config.digest) acknowledgeConfigurationChange
  let s ← app.acknowledgeChange s
  app.validateModelInventory
  app.continueRun s

def resume (runId : Text) (acknowledgeConfigurationChange : Bool) : Program RunState :=
  withRunLease host runId (app.resumeUnlocked runId acknowledgeConfigurationChange)

def status (host : Host) (runId : Text) : Program RunState := loadRun host runId none false

def report (host : Host) (runId : Text) : Program Text :=
  withRunLease host runId do
    let s ← loadRun host runId none false
    writeReport host s

end Application

/-- The operations of the application. -/
inductive Operation where
  | models
  | routeTask (task prompt : Text) (affectedPaths : List PurePath)
  | planObjective (projectPath : PurePath) (prompt : Text) (runId : Option Text)
  | runTask (projectPath : PurePath) (task prompt : Text) (affectedPaths : List PurePath)
      (runId : Option Text)
  | runObjective (projectPath : PurePath) (prompt : Text) (runId : Option Text)
  | approve (runId workItemId approvedBy : Text)
  | resume (runId : Text) (acknowledgeConfigurationChange : Bool)
  | status (runId : Text)
  | report (runId : Text)

def Operation.program (app : Application host) : Operation → Program Unit
  | .models => do let _ ← app.models
  | .routeTask task prompt paths => do let _ ← app.routeTask task prompt paths
  | .planObjective path prompt runId => do let _ ← app.planObjective path prompt runId
  | .runTask path task prompt paths runId => do let _ ← app.runTask path task prompt paths runId
  | .runObjective path prompt runId => do let _ ← app.runObjective path prompt runId
  | .approve runId item approvedBy => do let _ ← app.approve runId item approvedBy
  | .resume runId acknowledge => do let _ ← app.resume runId acknowledge
  | .status runId => do let _ ← Application.status host runId
  | .report runId => do let _ ← Application.report host runId

/-- The histories of one run: sessions follow each other, each running one operation up to any
point, where it ends or its process dies. -/
inductive Reachable (host : Host) : World → Prop where
  | initial (runId : Text) : Reachable host ⟨runId, .absent, []⟩
  | session (app : Application host) (op : Operation) (hw : Reachable host w)
      (hs : Prog.Steps (Next host) (op.program app) (w.begin app.config) p w') :
      Reachable host w'

end GoalRouter
