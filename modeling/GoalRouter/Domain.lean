import GoalRouter.Library.Dict
import GoalRouter.Library.Json
import GoalRouter.Library.PurePath
import GoalRouter.Library.DateTime

namespace GoalRouter
open Library
set_option autoImplicit true

/-- A `StrEnum`: its members in order, each with its own text. -/
class StrEnum (α : Type) where
  members : List α
  value : α → Text
  find_value : ∀ a, members.find? (fun b => value b = value a) = some a

/-- `α(t)`, `none` where it raises `ValueError`. -/
def StrEnum.ofValue? (α : Type) [StrEnum α] (t : Text) : Option α :=
  (members : List α).find? fun b => value b = t

@[simp] theorem StrEnum.ofValue?_value [StrEnum α] (a : α) : ofValue? α (value a) = some a :=
  find_value a

inductive SandboxMode where
  | readOnly | workspaceWrite
  deriving DecidableEq

inductive ApprovalMode where
  | automatic | required
  deriving DecidableEq

inductive AccessMode where
  | readOnly | workspaceWrite
  deriving DecidableEq

inductive WorkStatus where
  | pending | awaitingApproval | running | succeeded | failed | blocked
  deriving DecidableEq

inductive RunStatus where
  | planned | awaitingApproval | running | completed | failed | blocked
  deriving DecidableEq

inductive RouteSource where
  | explicit | planner | match | default
  deriving DecidableEq

instance : StrEnum SandboxMode where
  members := [.readOnly, .workspaceWrite]
  value
    | .readOnly => text "read-only"
    | .workspaceWrite => text "workspace-write"
  find_value a := by cases a <;> decide

instance : StrEnum ApprovalMode where
  members := [.automatic, .required]
  value
    | .automatic => text "automatic"
    | .required => text "required"
  find_value a := by cases a <;> decide

instance : StrEnum AccessMode where
  members := [.readOnly, .workspaceWrite]
  value
    | .readOnly => text "read-only"
    | .workspaceWrite => text "workspace-write"
  find_value a := by cases a <;> decide

instance : StrEnum WorkStatus where
  members := [.pending, .awaitingApproval, .running, .succeeded, .failed, .blocked]
  value
    | .pending => text "pending"
    | .awaitingApproval => text "awaiting-approval"
    | .running => text "running"
    | .succeeded => text "succeeded"
    | .failed => text "failed"
    | .blocked => text "blocked"
  find_value a := by cases a <;> decide

instance : StrEnum RunStatus where
  members := [.planned, .awaitingApproval, .running, .completed, .failed, .blocked]
  value
    | .planned => text "planned"
    | .awaitingApproval => text "awaiting-approval"
    | .running => text "running"
    | .completed => text "completed"
    | .failed => text "failed"
    | .blocked => text "blocked"
  find_value a := by cases a <;> decide

instance : StrEnum RouteSource where
  members := [.explicit, .planner, .match, .default]
  value
    | .explicit => text "explicit"
    | .planner => text "planner"
    | .match => text "match"
    | .default => text "default"
  find_value a := by cases a <;> decide

/-- A `frozenset` of strings. -/
abbrev TextSet := SortedMap Text Unit

def TextSet.ofTexts (ts : List Text) : TextSet := SortedMap.ofList (ts.map (·, ()))

structure InstructionFile where
  path : PurePath
  content : Text
  deriving DecidableEq

structure Objective where
  id : Text
  prompt : Text
  projectPath : PurePath
  explicitTask : Option Text
  configPath : PurePath
  createdAt : DateTime
  deriving DecidableEq

structure RepositoryContext where
  projectPath : PurePath
  isGitWorktree : Bool
  branch : Option Text
  dirtyPaths : List PurePath
  instructionFiles : List InstructionFile
  languageCounts : List (Text × Int)
  dockerFiles : List PurePath
  commandErrors : List Text
  deriving DecidableEq

structure ModelAlias where
  name : Text
  model : Text
  reasoningEffort : Text
  rank : Int
  deriving DecidableEq

structure TaskPolicy where
  task : Text
  description : Text
  modelAlias : Text
  sandbox : SandboxMode
  approval : ApprovalMode
  timeoutSeconds : Int
  maxAttempts : Int
  destructive : Bool
  externalWrite : Bool
  escalateTo : Option Text
  deriving DecidableEq

structure MatchRule where
  task : Text
  phrases : List Text
  fileGlobs : List Text
  deriving DecidableEq

structure HardRiskRule where
  flag : Text
  minimumModelAlias : Option Text
  approval : Option ApprovalMode
  deriving DecidableEq

structure WorkItem where
  id : Text
  title : Text
  instructions : Text
  task : Text
  phase : Text
  dependencies : List Text
  access : AccessMode
  affectedPaths : List PurePath
  expectedResult : Text
  verification : List Text
  confidence : PyFloat
  riskFlags : TextSet
  deriving DecidableEq

structure RouteDecision where
  task : Text
  modelAlias : Text
  model : Text
  reasoningEffort : Text
  sandbox : SandboxMode
  approval : ApprovalMode
  timeoutSeconds : Int
  maxAttempts : Int
  destructive : Bool
  externalWrite : Bool
  escalationTask : Option Text
  source : RouteSource
  reason : Text
  deriving DecidableEq

structure WorkResult where
  workItemId : Text
  threadId : Option Text
  turnId : Option Text
  status : WorkStatus
  finalResponse : Option Text
  sdkItems : List Json
  inputTokens : Int
  cachedInputTokens : Int
  outputTokens : Int
  durationSeconds : PyFloat
  changedPaths : List PurePath
  verification : List Text
  confidence : PyFloat
  escalationRequested : Bool
  error : Option Text
  deriving DecidableEq

structure ApprovalRecord where
  runId : Text
  workItemId : Text
  approvedBy : Text
  approvedAt : DateTime
  configurationDigest : Text
  fingerprint : Text
  deriving DecidableEq

structure RunEvent where
  timestamp : DateTime
  event : Text
  workItemId : Option Text
  details : List (Text × Json)
  deriving DecidableEq

/-- The checkpoint of one run. -/
structure RunState where
  schemaVersion : Int
  configurationDigest : Text
  objective : Objective
  repository : RepositoryContext
  workItems : Dict Text WorkItem
  routes : Dict Text RouteDecision
  results : Dict Text WorkResult
  approvals : Dict Text ApprovalRecord
  status : RunStatus
  deriving DecidableEq

def RunState.runId (s : RunState) : Text := s.objective.id

end GoalRouter
