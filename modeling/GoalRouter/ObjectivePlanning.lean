import GoalRouter.PlanValidation
import GoalRouter.Ports

namespace GoalRouter
open Library
set_option autoImplicit true

/-- A turn that is awaited as soon as it is started. -/
def runTurn (turn : Turn) : Program WorkResult := do
  invoke (.startTurn turn)
  let (_, outcome) ← invoke (.awaitTurn false [turn])
  Prog.ofExcept outcome

def planningTurn (objective : Objective) (route : RouteDecision) (prompt : Text) : Turn where
  subject := .planner
  threadId := none
  projectPath := objective.projectPath
  route := route
  prompt := prompt
  developerInstructions := some (text
    ("Return only structured work items that satisfy the supplied JSON Schema. " ++
      "Do not assign concrete models; choose only configured task identifiers."))
  structured := true

def correctionTurn (objective : Objective) (route : RouteDecision) (threadId : Text)
    (firstError : PyError) : Turn where
  subject := .correction
  threadId := some threadId
  projectPath := objective.projectPath
  route := route
  prompt := text ("Correct the previous response to satisfy the supplied JSON schema exactly. " ++
    "Structural error: ") ++ firstError.message
  developerInstructions := none
  structured := true

/-- Plan once, with one correction for a structurally invalid response. -/
def plan (host : Host) (config : RouterConfig) (objective : Objective)
    (repository : RepositoryContext) : Program (List WorkItem) := do
  let schemaText ← invoke .loadSchema
  let route ← route host config (plannerWorkItem objective config) none
  let prompt := buildPrompt objective repository config schemaText
  let result ← runTurn (planningTurn objective route prompt)
  match parseAndValidate host config objective.projectPath result.finalResponse with
  | .ok items => return items
  | .error firstError =>
    if firstError.kind = .structuralPlannerOutputError then
      match result.threadId with
      | none => raise (plannerOutputError
          (text "Planner response was structurally invalid and had no resumable thread ID"))
      | some threadId => do
        let corrected ← runTurn (correctionTurn objective route threadId firstError)
        parseAndValidate host config objective.projectPath corrected.finalResponse
    else raise firstError

end GoalRouter
