import GoalRouter.RouterConfiguration

namespace GoalRouter
open Library
set_option autoImplicit true

section Router

variable (host : Host) (config : RouterConfig)

def requireTask (task : Text) : Except PyError TaskPolicy :=
  match config.tasks.get? task with
  | some policy => .ok policy
  | none => .error ⟨.unknownTaskError, text "Unknown task " ++ host.repr task⟩

def requireAlias (name : Text) : Except PyError ModelAlias :=
  match config.modelAliases.get? name with
  | some entry => .ok entry
  | none => .error (configurationError (text "Unknown model alias " ++ host.repr name))

def globMatches (normalized pattern : Text) : Bool :=
  host.fnmatchcase normalized pattern ||
    ((text "**/").isPrefixOf pattern && host.fnmatchcase normalized (pattern.drop 3))

def firstGlobMatch (paths : List PurePath) (patterns : List Text) : Option (PurePath × Text) :=
  paths.findSome? fun path => (patterns.find? (globMatches host path.text)).map (path, ·)

/-- The first matcher rule that applies, counted from `index`. -/
def matchTask (foldedPrompt : Text) (affectedPaths : List PurePath) :
    Nat → List MatchRule → Option (Text × RouteSource × Text)
  | _, [] => none
  | index, rule :: rules =>
    match rule.phrases.find? (fun candidate => isInfix (host.fold candidate) foldedPrompt) with
    | some phrase => some (rule.task, .match,
        text "matching rule " ++ decimal index ++ text " phrase " ++ host.repr phrase)
    | none =>
      match firstGlobMatch host affectedPaths rule.fileGlobs with
      | some (path, pattern) => some (rule.task, .match,
          text "matching rule " ++ decimal index ++ text " glob " ++ host.repr pattern ++
            text " matched " ++ host.repr path.text)
      | none => matchTask foldedPrompt affectedPaths (index + 1) rules

/-- Explicit, planner, ordered matcher, then default precedence. -/
def selectTask (explicitTask plannedTask : Option Text) (prompt : Text)
    (affectedPaths : List PurePath) : Except PyError (Text × RouteSource × Text) :=
  match explicitTask, plannedTask with
  | some task, _ => do
    let _ ← requireTask host config task
    return (task, .explicit, text "explicit task " ++ host.repr task)
  | none, some task => do
    let _ ← requireTask host config task
    return (task, .planner, text "planner task " ++ host.repr task)
  | none, none =>
    match matchTask host (host.fold prompt) affectedPaths 0 config.matching with
    | some selected => .ok selected
    | none => do
      let _ ← requireTask host config config.defaultTask
      return (config.defaultTask, .default, text "default task " ++ host.repr config.defaultTask)

/-- What the hard-risk rules add up to: the rank floor, the approval, the floors applied. -/
structure RiskFloor where
  minimumRank : Int
  approval : ApprovalMode
  appliedFloors : List Text

def applyRule (activeFlags : List Text) (floor : RiskFloor) (rule : HardRiskRule) :
    Except PyError RiskFloor :=
  if rule.flag ∉ activeFlags then .ok floor
  else do
    let floor ← match rule.minimumModelAlias with
      | none => pure floor
      | some name => do
        let minimum ← requireAlias host config name
        pure { floor with
          minimumRank := max floor.minimumRank minimum.rank
          appliedFloors := floor.appliedFloors ++ [rule.flag ++ text ":" ++ name] }
    if rule.approval = some .required then return { floor with approval := .required }
    else return floor

/-- `min(candidates, key=lambda alias: alias.rank)`: the first of the least rank. -/
def leastRank : List ModelAlias → Option ModelAlias
  | [] => none
  | entry :: rest =>
    match leastRank rest with
    | none => some entry
    | some other => if other.rank < entry.rank then some other else some entry

def activeFlags (item : WorkItem) (policy : TaskPolicy) : List Text :=
  item.riskFlags.keys ++ (if policy.destructive then [text "destructive"] else []) ++
    (if policy.externalWrite then [text "external-write"] else [])

def route (item : WorkItem) (explicitTask : Option Text) : Except PyError RouteDecision := do
  let (taskName, source, reason) ←
    selectTask host config explicitTask (some item.task) item.instructions item.affectedPaths
  let policy ← match config.tasks.get? taskName with
    | some policy => pure policy
    | none => .error ⟨.keyError, host.repr taskName⟩
  let originalAlias ← requireAlias host config policy.modelAlias
  let floor ← config.hardRiskRules.foldlM (applyRule host config (activeFlags item policy))
    ⟨originalAlias.rank, policy.approval, []⟩
  let candidates := config.modelAliases.values.filter fun entry => floor.minimumRank ≤ entry.rank
  let selectedAlias ← match leastRank candidates with
    | some selected => pure selected
    | none => .error (configurationError
        (text "No configured model alias satisfies minimum rank " ++ decimal floor.minimumRank))
  let reason := if floor.appliedFloors = [] then reason
    else reason ++ text "; hard floors " ++ joinTexts (text ", ") floor.appliedFloors
  return {
    task := taskName
    modelAlias := selectedAlias.name
    model := selectedAlias.model
    reasoningEffort := selectedAlias.reasoningEffort
    sandbox := policy.sandbox
    approval := floor.approval
    timeoutSeconds := policy.timeoutSeconds
    maxAttempts := policy.maxAttempts
    destructive := policy.destructive || text "destructive" ∈ item.riskFlags.keys
    externalWrite := policy.externalWrite || text "external-write" ∈ item.riskFlags.keys
    escalationTask := policy.escalateTo
    source, reason }

def validateModels (availableModelIds : List Text) : Except PyError Unit :=
  let missing := TextSet.ofTexts
    ((config.modelAliases.values.map ModelAlias.model).filter (· ∉ availableModelIds))
  if missing.keys = [] then .ok ()
  else .error ⟨.modelUnavailableError,
    text "Configured model unavailable: " ++ joinTexts (text ", ") missing.keys⟩

end Router

theorem route_congr {host : Host} {config : RouterConfig} {item item' : WorkItem}
    (ht : item.task = item'.task) (hr : item.riskFlags = item'.riskFlags) :
    route host config item none = route host config item' none := by
  simp only [route, selectTask, activeFlags, ht, hr]

end GoalRouter
