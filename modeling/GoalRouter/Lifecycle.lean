import GoalRouter.Application

namespace GoalRouter
open Library
set_option autoImplicit true

/-- The states a run can begin with. -/
inductive Fresh {host : Host} (app : Application host) : RunState → Prop where
  | planned {objective : Objective} {items : List WorkItem}
      (hp : parseAndValidate host app.config objective.projectPath content = .ok items)
      (hc : completionId ∉ items.map WorkItem.id) (hr : app.routeItems items = .ok routes)
      (ho : objective.explicitTask = none) (ht : objective.createdAt.offset ≠ none) :
      Fresh app (app.initialState objective repository
        (Dict.ofList (items.map fun item => (item.id, item))) routes)
  | explicit {objective : Objective}
      (he : app.explicitItem task prompt paths = .ok (item, decision))
      (ho : objective.explicitTask = some task) (ht : objective.createdAt.offset ≠ none) :
      Fresh app (app.initialState objective repository (Dict.ofList [(item.id, item)])
        (Dict.ofList [(item.id, decision)]))

namespace RunState

/-- An unfinished item with a failed or blocked dependency. -/
def Blockable (s : RunState) (item : WorkItem) : Prop :=
  ∃ k, s.workItems.get? k = some item ∧ s.isUnfinished k = true ∧
    item.dependencies.any s.hasFailed = true

/-- A result of a turn for an unfinished item whose dependencies have succeeded. -/
structure Finishable (s : RunState) (item : WorkItem) (r : WorkResult) : Prop where
  stored : s.workItems.get? item.id = some item
  unfinished : s.isUnfinished item.id = true
  ready : item.dependencies.all s.hasSucceeded = true
  subject : r.workItemId = item.id
  terminal : r.status = .succeeded ∨ r.status = .failed

def withCompletion (s : RunState) (task : Text) (decision : RouteDecision) : RunState :=
  { s with
    workItems := s.workItems.set completionId (completionItem s task)
    routes := s.routes.set completionId decision
    status := .planned }

end RunState

def blockedResult (item : WorkItem) : WorkResult :=
  failureResult item .blocked (text "A dependency did not succeed")

/-- A result that the scheduler may add to the state. -/
def RunState.Acquires (s : RunState) (r : WorkResult) : Prop :=
  ∃ item, s.Blockable item ∧ r = blockedResult item ∨ s.Finishable item r

/-- The event tells that a work item is finished. -/
def RunEvent.finishes (e : RunEvent) : Bool := e.event = text "work-item-finished"

/-- Calls that neither change the run or its directory nor mark a point of its life. -/
def Call.quiet : Call → Bool
  | .startTurn _ | .create _ | .load _ | .save _ | .note _ => false
  | .appendEvent _ e => !e.finishes
  | _ => true

def Event.quiet : Event → Bool
  | .began _ => true
  | .replaced _ => false
  | .answered (.load _) (.error _) => true
  | .answered c _ => c.quiet

theorem Event.quiet_answered (h : c.quiet = true) (r : Except PyError (Val c)) :
    (Event.answered c r).quiet = true := by
  cases c with
  | load => cases h
  | _ => exact h

/-- The result that a finishing event reports: it was saved since `w₀`, and no other was reported
in the meantime. -/
structure Reports (s : RunState) (r : WorkResult) (w₀ w : World) (e : RunEvent) : Prop where
  acquired : s.Acquires r
  since : ∃ since, w.log = since ++ w₀.log ∧ .replaced (s.withResult r) ∈ since ∧
    ∀ rid e x, .answered (.appendEvent rid e) x ∈ since → e.finishes = false
  workItemId : e.workItemId = some r.workItemId
  details : e.details = [(text "status", enumText r.status)]

/-- The configuration of the process that began last. -/
def currentConfig (log : List Event) : Option RouterConfig :=
  log.findSome? fun
    | .began config => some config
    | _ => none

theorem began_of_currentConfig {log : List Event} (h : currentConfig log = some config) :
    .began config ∈ log := by
  obtain ⟨e, hm, he⟩ := List.exists_of_findSome?_eq_some h
  cases e with
  | began config' =>
    cases he
    exact hm
  | answered | replaced => cases he

/-- The life of a run: what its process holds in memory and the world around it. A process may
lose its memory at any time, by an exception or by dying. -/
inductive Lifecycle (host : Host) : Option RunState → World → Prop where
  | initial (runId : Text) : Lifecycle host none ⟨runId, .absent, []⟩
  | forget (h : Lifecycle host m w) : Lifecycle host none w
  | quiet (h : Lifecycle host m w) (he : e.quiet = true) :
      Lifecycle host m { w with log := e :: w.log }
  | create (h : Lifecycle host m w) (app : Application host) (hs : Fresh app s)
      (r : Except PyError Unit) : Lifecycle host m (w.push (.create s) r)
  | created (h : Lifecycle host m w) (app : Application host) (hs : Fresh app s)
      (hr : s.runId = w.runId) (hd : w.dir = .absent) : Lifecycle host (some s) (w.land s)
  | halfCreated (h : Lifecycle host m w) (hd : w.dir = .absent) :
      Lifecycle host m { w with dir := .empty }
  | loaded (h : Lifecycle host m w) (hl : loadSync host w.runId w.dir = .ok s) :
      Lifecycle host (some s) (w.push (.load w.runId) (.ok s))
  | save (h : Lifecycle host (some s) w) (r : Except PyError Unit) :
      Lifecycle host (some s) (w.push (.save s) r)
  | saved (h : Lifecycle host (some s) w) (hr : s.runId = w.runId) (hd : w.dir ≠ .absent) :
      Lifecycle host (some s) (w.land s)
  | approved {workItemId : Text} (h : Lifecycle host (some s) w)
      (hl : loadSync host w.runId w.dir = .ok s)
      (ha : approve host s workItemId approvedBy approvedAt = .ok s') :
      Lifecycle host (some s') (w.push (.note (.approved s' workItemId)) (.ok ()))
  | adopted (app : Application host) (h : Lifecycle host (some s) w)
      (hc : currentConfig w.log = some app.config)
      (ha : s.adoptCurrentConfiguration host app.config = .ok s') :
      Lifecycle host (some s') (w.push (.note (.adopted s')) (.ok ()))
  | passing (h : Lifecycle host (some s) w) :
      Lifecycle host (some s) (w.push (.note (.passing s)) (.ok ()))
  | blocked (h : Lifecycle host (some s) w) (hb : s.Blockable item) :
      Lifecycle host (some (s.withResult (blockedResult item))) w
  | validated {workItemId : Text} (h : Lifecycle host (some s) w)
      (hd : requireDispatchable host s workItemId = .ok ()) :
      Lifecycle host (some s) (w.push (.note (.validated s workItemId)) (.ok ()))
  | dispatching (h : Lifecycle host (some s) w) (hd : item ∈ s.dispatchable host) :
      Lifecycle host (some s) (w.push (.note (.dispatching s item)) (.ok ()))
  | started (h : Lifecycle host (some s) w) (hd : item ∈ s.dispatchable host)
      (ht : dispatchTurn host s item = .ok t)
      (hv : ∃ s₀ r, .answered (.note (.validated s₀ item.id)) r ∈ w.log ∧ s₀.routes = s.routes) :
      Lifecycle host (some s) (w.push (.startTurn t) (.ok ()))
  | planning {t : Turn} (app : Application host) (h : Lifecycle host m w)
      (hc : .began app.config ∈ w.log)
      (hr : route host app.config (plannerWorkItem objective app.config) none = .ok t.route)
      (ht : t.subject = .planner ∨ t.subject = .correction) :
      Lifecycle host m (w.push (.startTurn t) (.ok ()))
  | finished (h : Lifecycle host (some s) w) (hf : s.Finishable item r) :
      Lifecycle host (some (s.withResult r)) w
  | recorded {e : RunEvent} (h₀ : Lifecycle host (some s) w₀) (h : Lifecycle host m w)
      (he : Reports s r w₀ w e) (rid : Text) (x : Except PyError Unit) :
      Lifecycle host m (w.push (.appendEvent rid e) x)
  | statusSet (h : Lifecycle host (some s) w) (hs : status = .planned ∨ status = .running) :
      Lifecycle host (some { s with status }) w
  | concluding (h : Lifecycle host (some s) w) :
      Lifecycle host (some s) (w.push (.note (.concluding s)) (.ok ()))
  | concluded (h : Lifecycle host (some s) w)
      (hn : .answered (.note (.concluding s)) (.ok ()) ∈ w.log)
      (hf : s.finalStatus host = .ok status) : Lifecycle host (some { s with status }) w
  | appended (app : Application host) (h : Lifecycle host (some s) w)
      (hc : currentConfig w.log = some app.config) (ho : s.objective.explicitTask = none)
      (hb : s.baseWorkSucceeded = true) (hn : completionId ∉ s.workItems.keys)
      (hr : route host app.config (completionItem s app.config.completionTask) none =
        .ok decision) :
      Lifecycle host (some (s.withCompletion app.config.completionTask decision)) w

end GoalRouter
