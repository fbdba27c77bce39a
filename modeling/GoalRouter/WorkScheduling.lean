import GoalRouter.DispatchApproval
import GoalRouter.Ports

namespace GoalRouter
open Library
set_option autoImplicit true

def failureResult (item : WorkItem) (status : WorkStatus) (message : Text) : WorkResult where
  workItemId := item.id
  threadId := none
  turnId := none
  status := status
  finalResponse := none
  sdkItems := []
  inputTokens := 0
  cachedInputTokens := 0
  outputTokens := 0
  durationSeconds := PyFloat.zero
  changedPaths := []
  verification := []
  confidence := PyFloat.zero
  escalationRequested := false
  error := some message

def WorkStatus.isDependencyFailure (status : WorkStatus) : Bool :=
  status ∈ [.failed, .blocked]

def WorkStatus.isResumable (status : WorkStatus) : Bool :=
  status ∈ [.pending, .awaitingApproval, .running]

def RunStatus.isPreWriter (status : RunStatus) : Bool :=
  status ∈ [.awaitingApproval, .running]

namespace RunState

/-- No result under the id, or one that may be resumed. -/
def isUnfinished (s : RunState) (id : Text) : Bool :=
  ((s.results.get? id).map fun r => r.status.isResumable).getD true

def hasSucceeded (s : RunState) (id : Text) : Bool :=
  ((s.results.get? id).map fun r => decide (r.status = .succeeded)).getD false

def hasFailed (s : RunState) (id : Text) : Bool :=
  ((s.results.get? id).map fun r => r.status.isDependencyFailure).getD false

/-- The unfinished items in the order of their keys. -/
def pendingItems (s : RunState) : List WorkItem :=
  (s.workItems.sorted.entries.filter fun e => s.isUnfinished e.1).map Prod.snd

def newlyBlocked (s : RunState) : List WorkItem :=
  s.pendingItems.filter fun item => item.dependencies.any s.hasFailed

/-- `requireDispatchable` raises nothing but the error that is caught here. -/
def isApproved (host : Host) (s : RunState) (id : Text) : Bool :=
  match requireDispatchable host s id with
  | .ok () => true
  | .error _ => false

def dispatchable (host : Host) (s : RunState) : List WorkItem :=
  s.pendingItems.filter fun item =>
    item.dependencies.all s.hasSucceeded && s.isApproved host item.id

def withResult (s : RunState) (result : WorkResult) : RunState :=
  { s with results := s.results.set result.workItemId result }

/-- Some item without a result waits for approval; a missing route raises `KeyError`. -/
def awaitsApproval (host : Host) (s : RunState) : List WorkItem → Except PyError Bool
  | [] => .ok false
  | item :: items =>
    if (s.results.get? item.id).isSome then awaitsApproval host s items
    else
      match s.routes.get? item.id with
      | none => .error ⟨.keyError, host.repr item.id⟩
      | some route => if route.approval = .required then .ok true else awaitsApproval host s items

def finalStatus (host : Host) (s : RunState) : Except PyError RunStatus :=
  let statuses := s.results.values.map WorkResult.status
  if .failed ∈ statuses then .ok .failed
  else if .blocked ∈ statuses then .ok .blocked
  else if s.results.size = s.workItems.size ∧ ∀ status ∈ statuses, status = .succeeded then
    .ok .completed
  else
    (awaitsApproval host s s.workItems.values).map fun waits =>
      if waits then .awaitingApproval else .planned

@[simp] theorem isUnfinished_withResult (s : RunState) (r : WorkResult) (id : Text) :
    (s.withResult r).isUnfinished id =
      if id = r.workItemId then r.status.isResumable else s.isUnfinished id := by
  rw [isUnfinished, withResult, Dict.get?_set]
  split <;> rfl

@[simp] theorem hasSucceeded_withResult (s : RunState) (r : WorkResult) (id : Text) :
    (s.withResult r).hasSucceeded id =
      if id = r.workItemId then decide (r.status = .succeeded) else s.hasSucceeded id := by
  rw [hasSucceeded, withResult, Dict.get?_set]
  split <;> rfl

@[simp] theorem hasFailed_withResult (s : RunState) (r : WorkResult) (id : Text) :
    (s.withResult r).hasFailed id =
      if id = r.workItemId then r.status.isDependencyFailure else s.hasFailed id := by
  rw [hasFailed, withResult, Dict.get?_set]
  split <;> rfl

theorem hasSucceeded_iff {s : RunState} {id : Text} :
    s.hasSucceeded id = true ↔ ∃ r, s.results.get? id = some r ∧ r.status = .succeeded := by
  rw [hasSucceeded]
  cases s.results.get? id <;> simp

theorem hasFailed_iff {s : RunState} {id : Text} :
    s.hasFailed id = true ↔
      ∃ r, s.results.get? id = some r ∧ (r.status = .failed ∨ r.status = .blocked) := by
  rw [hasFailed]
  cases s.results.get? id <;> simp [WorkStatus.isDependencyFailure]

theorem isUnfinished_iff {s : RunState} {id : Text} :
    s.isUnfinished id = true ↔ ∀ r, s.results.get? id = some r → r.status.isResumable = true := by
  rw [isUnfinished]
  cases s.results.get? id <;> simp

theorem not_unfinished_of_succeeded {s : RunState} {id : Text} (h : s.hasSucceeded id = true) :
    s.isUnfinished id = false := by
  obtain ⟨r, hr, hs⟩ := hasSucceeded_iff.1 h
  simp [isUnfinished, hr, hs, WorkStatus.isResumable]

theorem not_unfinished_of_failed {s : RunState} {id : Text} (h : s.hasFailed id = true) :
    s.isUnfinished id = false := by
  obtain ⟨r, hr, hs⟩ := hasFailed_iff.1 h
  rcases hs with hs | hs <;> simp [isUnfinished, hr, hs, WorkStatus.isResumable]

theorem mem_pendingItems {s : RunState} {item : WorkItem} :
    item ∈ s.pendingItems ↔ ∃ k, s.workItems.get? k = some item ∧ s.isUnfinished k = true := by
  simp only [pendingItems, List.mem_map, List.mem_filter, Prod.exists, exists_eq_right,
    SortedMap.mem_entries, Dict.get?_sorted]

theorem isApproved_iff {host : Host} {s : RunState} {id : Text} :
    s.isApproved host id = true ↔ requireDispatchable host s id = .ok () := by
  rw [isApproved]
  cases requireDispatchable host s id <;> simp

theorem mem_dispatchable {host : Host} {s : RunState} {item : WorkItem} :
    item ∈ s.dispatchable host ↔ item ∈ s.pendingItems ∧
      (∀ d ∈ item.dependencies, s.hasSucceeded d = true) ∧
        requireDispatchable host s item.id = .ok () := by
  simp only [dispatchable, List.mem_filter, Bool.and_eq_true, List.all_eq_true, isApproved_iff]

end RunState

def developerInstructions (s : RunState) : Text :=
  joinTexts (text "\n\n") <|
    text ("Respect the declared sandbox and make only the bounded change described by the " ++
      "work item.") ::
    s.repository.instructionFiles.map fun f =>
      text "Repository instructions from " ++ f.path.text ++ text ":\n" ++ f.content

/-- The client call that `_dispatch` makes for an item. -/
def dispatchTurn (host : Host) (s : RunState) (item : WorkItem) : Except PyError Turn :=
  match s.routes.get? item.id with
  | none => .error ⟨.keyError, host.repr item.id⟩
  | some route =>
    let threadId := (s.results.get? item.id).bind WorkResult.threadId
    .ok {
      subject := .item item
      threadId
      projectPath := s.objective.projectPath
      route
      prompt := item.instructions
      developerInstructions := if threadId.isNone then some (developerInstructions s) else none
      structured := false }

theorem dispatchTurn_ok {host : Host} {s : RunState} {item : WorkItem} {t : Turn}
    (h : dispatchTurn host s item = .ok t) :
    s.routes.get? item.id = some t.route ∧ t.subject = .item item := by
  rw [dispatchTurn] at h
  split at h
  · cases h
  · rename_i hr
    cases h
    exact ⟨hr, rfl⟩

def isFailure : Outcome → Bool
  | .ok _ => false
  | .error e => decide (e.kind ≠ .cancelledError)

/-- The result a reader's turn leaves behind. -/
def readerResult (item : WorkItem) : Outcome → WorkResult
  | .ok r => { r with workItemId := item.id }
  | .error e =>
    failureResult item .failed
      (if e.kind = .cancelledError then text "Cancelled because a sibling task failed"
      else e.describe)

/-- A turn in flight with the item it works on. -/
abbrev Running := List (WorkItem × Turn)

def Running.turns (running : Running) : List Turn := running.map Prod.snd

def Running.remove (running : Running) (turn : Turn) : Running :=
  running.eraseP fun p => p.2 = turn

theorem Running.remove_turns (running : Running) (t : Turn) :
    (running.remove t).turns = running.turns.erase t := by
  rw [Running.turns, Running.turns, Running.remove]
  induction running with
  | nil => rfl
  | cons p running ih =>
    rw [List.eraseP_cons, List.map_cons, List.erase_cons]
    by_cases hp : p.2 = t
    · simp [hp]
    · simp [hp, ih]

theorem Running.length_remove {running : Running} {t : Turn} (hm : t ∈ running.turns)
    (hn : running.length = n + 1) : (running.remove t).length = n := by
  have hl : (running.remove t).turns.length = running.turns.length - 1 := by
    rw [running.remove_turns, List.length_erase_of_mem hm]
  rw [Running.turns, Running.turns, List.length_map, List.length_map, hn] at hl
  exact hl

abbrev Collected := Dict Text WorkResult

def collect (running : Running) (results : Collected) (turn : Turn) (outcome : Outcome) :
    Collected :=
  match running.find? fun p => p.2 = turn with
  | none => results
  | some (item, _) => results.set item.id (readerResult item outcome)

/-- Let the cancelled siblings end; whether one of them failed is returned too. -/
def drain : Nat → Running → Collected → Bool → Program (Collected × Bool)
  | 0, _, results, failed => pure (results, failed)
  | n + 1, running, results, failed => do
    let (turn, outcome) ← invoke (.awaitTurn false running.turns)
    drain n (running.remove turn) (collect running results turn outcome)
      (failed || isFailure outcome)

/-- Wait for the turns of a task group. A failure cancels the siblings and is swallowed; so is
a cancellation of the group when one of its tasks failed. -/
def gather : Nat → Running → Collected → Program Collected
  | 0, _, results => pure results
  | n + 1, running, results => do
    match ← Prog.attempt (invoke (.awaitTurn true running.turns)) with
    | .error e =>
      let (results, failed) ← drain (n + 1) running results false
      if failed then return results else raise e
    | .ok (turn, outcome) =>
      let results := collect running results turn outcome
      if isFailure outcome then
        let (results, _) ← drain n (running.remove turn) results true
        return results
      else gather n (running.remove turn) results

section Scheduler

variable (host : Host)

def persistResult (s : RunState) (result : WorkResult) : Program RunState := do
  let s := s.withResult result
  saveRun host s
  let timestamp ← invoke .now
  appendEvent host s.runId {
    timestamp
    event := text "work-item-finished"
    workItemId := some result.workItemId
    details := [(text "status", enumText result.status)] }
  return s

def persistBlocked (s : RunState) (blocked : List WorkItem) : Program RunState :=
  blocked.foldlM (fun s item => persistResult host s
    (failureResult item .blocked (text "A dependency did not succeed"))) s

def runOne (s : RunState) (item : WorkItem) : Program WorkResult :=
  match dispatchTurn host s item with
  | .error e => pure (failureResult item .failed e.describe)
  | .ok turn => do
    note (.dispatching s item)
    invoke (.startTurn turn)
    let (_, outcome) ← invoke (.awaitTurn false [turn])
    match outcome with
    | .ok r => return { r with workItemId := item.id }
    | .error e =>
      if e.kind = .cancelledError then raise e
      else return failureResult item .failed e.describe

/-- Start the turns of a batch. One that fails before its first await is never in flight. -/
def startBatch (s : RunState) : List WorkItem → Running → Collected → Bool →
    Program (Running × Collected × Bool)
  | [], running, results, failed => pure (running, results, failed)
  | item :: items, running, results, failed =>
    match dispatchTurn host s item with
    | .error e =>
      startBatch s items running (results.set item.id (readerResult item (.error e))) true
    | .ok turn => do
      note (.dispatching s item)
      invoke (.startTurn turn)
      startBatch s items (running ++ [(item, turn)]) results failed

def runReadBatch (s : RunState) (items : List WorkItem) : Program (List WorkResult) := do
  let (running, results, failed) ← startBatch host s items [] ∅ false
  let results ←
    if failed then (do let (results, _) ← drain running.length running results true; pure results)
    else gather running.length running results
  items.mapM fun item =>
    match results.get? item.id with
    | some r => pure r
    | none => raise ⟨.keyError, host.repr item.id⟩

/-- What a writer does while it holds the project lease. -/
def writerBody (s : RunState) (item : WorkItem) : Program RunState := do
  requireDispatchable host s item.id
  note (.validated s item.id)
  let s := { s with status := .running }
  let result ← runOne host s item
  persistResult host s result

def runWriter (s : RunState) (item : WorkItem) : Program RunState := do
  let s ←
    if s.status.isPreWriter then (do
      let s := { s with status := .planned }
      saveRun host s
      pure s)
    else pure s
  invoke (.acquireProject s.objective.projectPath)
  (writerBody host s item).ensure (invoke (.releaseProject s.objective.projectPath))

def runReaders (s : RunState) (batch : List WorkItem) : Program RunState := do
  let s := { s with status := .running }
  let results ← runReadBatch host s batch
  results.foldlM (persistResult host) s

/-- The main loop; its bound is the number of work items at the start. -/
def runLoop (maxReadConcurrency : Nat) : Nat → RunState → Program RunState
  | 0, s => pure s
  | n + 1, s => do
    note (.passing s)
    let s ← persistBlocked host s s.newlyBlocked
    let ready := s.dispatchable host
    if ready = [] then return s
    else do
      ready.forM fun item => note (.validated s item.id)
      match ready.find? fun item => item.access = .workspaceWrite with
      | some item =>
        let s ← runWriter host s item
        runLoop maxReadConcurrency n s
      | none =>
        let s ← runReaders host s (ready.take maxReadConcurrency)
        runLoop maxReadConcurrency n s

def conclude (s : RunState) : Program RunState := do
  note (.concluding s)
  let status ← s.finalStatus host
  if s.status = status then return s
  else do
    let s := { s with status }
    saveRun host s
    return s

def runReady (maxReadConcurrency : Nat) (s : RunState) : Program RunState := do
  let s ← runLoop host maxReadConcurrency s.workItems.size s
  conclude host s

end Scheduler

end GoalRouter
