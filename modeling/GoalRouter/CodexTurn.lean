import GoalRouter.Domain
import GoalRouter.Errors

namespace GoalRouter
open Library
set_option autoImplicit true

/-- What the SDK returns for a turn; the duration is in seconds already. -/
structure SdkTurn where
  id : Text
  status : Text
  finalResponse : Option Text
  items : List Json
  usage : Option (Int × Int × Int)
  durationSeconds : PyFloat

/-- `_normalize_result`. -/
def normalizeResult (route : RouteDecision) (threadId : Text) (turn : SdkTurn) :
    Except PyError WorkResult :=
  if turn.status ≠ text "completed" then
    .error ⟨.sdkError, text "Codex turn ended with status " ++ turn.status⟩
  else if turn.finalResponse = none then
    .error ⟨.sdkError, text "Codex turn completed without a final response"⟩
  else .ok {
    workItemId := route.task
    threadId := some threadId
    turnId := some turn.id
    status := .succeeded
    finalResponse := turn.finalResponse
    sdkItems := turn.items
    inputTokens := (turn.usage.map fun u => u.1).getD 0
    cachedInputTokens := (turn.usage.map fun u => u.2.1).getD 0
    outputTokens := (turn.usage.map fun u => u.2.2).getD 0
    durationSeconds := turn.durationSeconds
    changedPaths := []
    verification := []
    confidence := PyFloat.one
    escalationRequested := false
    error := none }

theorem normalizeResult_succeeded {route : RouteDecision} {threadId : Text} {turn : SdkTurn}
    {r : WorkResult} (h : normalizeResult route threadId turn = .ok r) : r.status = .succeeded := by
  rw [normalizeResult] at h
  split at h
  · cases h
  · split at h <;> cases h
    rfl

/-- Whose turn it is. -/
inductive Subject where
  | planner
  | correction
  | item (item : WorkItem)
  deriving DecidableEq

/-- One call of the client: `resume_thread` where a thread is given, else `run_new_thread`. -/
structure Turn where
  subject : Subject
  threadId : Option Text
  projectPath : PurePath
  route : RouteDecision
  prompt : Text
  developerInstructions : Option Text
  structured : Bool
  deriving DecidableEq

/-- What a turn comes to. Its error is an `Exception` or a `CancelledError`; how `execute` takes
the other `BaseException`s is for `Execute` to say. -/
abbrev Outcome := Except PyError WorkResult

/-- How a turn can end: with a normalized result, or with an exception. -/
def Turn.Ends (t : Turn) : Outcome → Prop
  | .ok r => ∃ threadId turn, normalizeResult t.route threadId turn = .ok r
  | .error _ => True

end GoalRouter
