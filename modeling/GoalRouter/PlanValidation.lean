import GoalRouter.TaskRouting
import GoalRouter.Library.TopologicalOrder

namespace GoalRouter
open Library
set_option autoImplicit true

namespace PlannerSchema

def workItem : Schema := .allOf <|
  closedObject [text "id", text "title", text "instructions", text "task", text "phase",
      text "dependencies", text "access", text "affected-paths", text "expected-result",
      text "verification", text "confidence", text "risk-flags"] [
    (text "id", identifierSchema),
    (text "title", nonEmptyString),
    (text "instructions", nonEmptyString),
    (text "task", identifierSchema),
    (text "phase", identifierSchema),
    (text "dependencies", uniqueStrings identifierSchema),
    (text "access", .enum [text "read-only", text "workspace-write"]),
    (text "affected-paths", uniqueStrings nonEmptyString),
    (text "expected-result", nonEmptyString),
    (text "verification", uniqueStrings nonEmptyString),
    (text "confidence", .allOf [.type .number, .minimum 0, .maximum 1]),
    (text "risk-flags", uniqueStrings identifierSchema)]

/-- `planner-output.schema.json`. -/
def plannerOutput : Schema := .allOf <|
  closedObject [text "work-items"] [
    (text "work-items", .allOf [.type .array, .minItems 1, .items workItem])]

end PlannerSchema

def plannerOutputError (message : Text) : PyError := ⟨.plannerOutputError, message⟩

def structuralError (message : Text) : PyError := ⟨.structuralPlannerOutputError, message⟩

/-- The field decoders of a planner response. -/
def plannerDecoder : Decoder :=
  ⟨text "Missing planner field ", .plannerOutputError, .structuralPlannerOutputError⟩

namespace PlannerField

abbrev field := plannerDecoder.field
abbrev mapping := plannerDecoder.mapping
abbrev plainString := plannerDecoder.plainString
abbrev string := plannerDecoder.required plannerDecoder.plainString
abbrev number := plannerDecoder.required plannerDecoder.plainNumber
abbrev sequence := plannerDecoder.required plannerDecoder.plainSequence

def stringTuple (raw : Fields) (name : Text) : Except PyError (List Text) :=
  sequence raw name >>= fun values => values.mapM (plainString name)

end PlannerField

open PlannerField

section Validation

variable (host : Host) (config : RouterConfig) (project : PurePath)

def resolvePath (path : PurePath) : Except PyError PurePath :=
  match host.resolve path with
  | .ok resolved => .ok resolved
  | .error message => .error ⟨.valueError, message⟩

/-- A path relative to the resolved project, which it may not leave. -/
def containedRelativePath (raw : Text) : Except PyError PurePath := do
  let projectRoot ← resolvePath host project
  let candidate := PurePath.ofText raw
  let resolved ← resolvePath host
    (if candidate.isAbsolute then candidate else projectRoot.join candidate)
  match resolved.relativeTo projectRoot with
  | some relative => return relative
  | none => .error (plannerOutputError (text "Affected path escapes project: " ++ raw))

def parseWorkItem (seen : List Text) (index : Nat) (value : Json) : Except PyError WorkItem := do
  let context := indexed (text "work-items") index
  let raw ← mapping context value
  let id ← string raw (text "id")
  if id ∈ seen then
    .error (plannerOutputError (text "Planner returned duplicate work-item ID " ++ host.repr id))
  let task ← string raw (text "task")
  if !config.tasks.contains task then
    .error (plannerOutputError (text "Planner returned unknown task " ++ host.repr task))
  let access ← string raw (text "access") >>= ConfigField.enumOf AccessMode
  let verification ← stringTuple raw (text "verification")
  if access = .workspaceWrite && verification = [] then
    .error (plannerOutputError
      (text "Write-capable work item " ++ host.repr id ++ text " has no verification"))
  let rawPaths ← sequence raw (text "affected-paths")
  let affectedPaths ← rawPaths.mapM fun path =>
    plainString (context ++ text ".affected-paths") path >>= containedRelativePath host project
  let title ← string raw (text "title")
  let instructions ← string raw (text "instructions")
  let phase ← string raw (text "phase")
  let dependencies ← stringTuple raw (text "dependencies")
  let expectedResult ← string raw (text "expected-result")
  let confidence ← number raw (text "confidence")
  let riskFlags ← stringTuple raw (text "risk-flags")
  return { id, title, instructions, task, phase, dependencies, access, affectedPaths,
           expectedResult, verification, confidence, riskFlags := TextSet.ofTexts riskFlags }

def parseWorkItems : List Text → Nat → List Json → Except PyError (List WorkItem)
  | _, _, [] => .ok []
  | seen, index, value :: values => do
    let item ← parseWorkItem host config project seen index value
    let items ← parseWorkItems (item.id :: seen) (index + 1) values
    return item :: items

def rejectMissing (ids : List Text) (item : WorkItem) : Except PyError Unit :=
  match item.dependencies.find? (· ∉ ids) with
  | none => .ok ()
  | some dependency => .error (plannerOutputError (text "Work item " ++ host.repr item.id ++
      text " has missing dependency " ++ host.repr dependency))

/-- Visit an item and all it depends on; the items visited stand newest first. -/
def visit (dependencies : Dict Text (List Text)) :
    Nat → List Text → List Text → Text → Except PyError (List Text)
  | 0, _, _, _ => .error ⟨.other (text "RecursionError"), []⟩
  | depth + 1, visiting, visited, id =>
    if id ∈ visiting then
      .error (plannerOutputError (text "Planner dependency cycle includes " ++ host.repr id))
    else if id ∈ visited then .ok visited
    else do
      let below ← match dependencies.get? id with
        | some below => pure below
        | none => .error ⟨.keyError, host.repr id⟩
      let visited ← below.foldlM (visit dependencies depth (id :: visiting)) visited
      return id :: visited

def dependencyTable (items : List WorkItem) : Dict Text (List Text) :=
  Dict.ofList (items.map fun item => (item.id, item.dependencies))

def rejectCycles (items : List WorkItem) : Except PyError (List Text) :=
  (items.map WorkItem.id).foldlM (visit host (dependencyTable items) (items.length + 1) []) []

def parseSemanticWorkItems (raw : Fields) : Except PyError (List WorkItem) := do
  let values ← sequence raw (text "work-items")
  let items ← parseWorkItems host config project [] 0 values
  let _ ← items.mapM (rejectMissing host (items.map WorkItem.id))
  let _ ← rejectCycles host items
  return items

def parseAndValidate (content : Option Text) : Except PyError (List WorkItem) :=
  match content with
  | none => .error (structuralError (text "Planner returned no final response"))
  | some content =>
    match host.loads content with
    | .error message =>
      .error (structuralError (text "Planner response is not valid JSON: " ++ message))
    | .ok loaded => do
      let raw ← mapping (text "planner response") loaded
      if PlannerSchema.plannerOutput.accepts (.obj raw) then
        parseSemanticWorkItems host config project raw
      else
        let (location, message) := host.schemaError PlannerSchema.plannerOutput (.obj raw)
        .error (structuralError (text "Planner response violates schema at " ++ location ++
          text ": " ++ message))

end Validation

def plannerWorkItem (objective : Objective) (config : RouterConfig) : WorkItem where
  id := text "objective-plan"
  title := text "Plan objective"
  instructions := objective.prompt
  task := config.plannerTask
  phase := text "planning"
  dependencies := []
  access := .readOnly
  affectedPaths := []
  expectedResult := text "A validated graph of bounded work items."
  verification := []
  confidence := PyFloat.one
  riskFlags := ∅

def orElseText (t other : Text) : Text := if t = [] then other else t

/-- The planner's prompt; `schemaText` is the dumped planner schema. -/
def buildPrompt (objective : Objective) (repository : RepositoryContext) (config : RouterConfig)
    (schemaText : Text) : Text :=
  let newline := text "\n"
  let taskLines := joinTexts newline
    (config.tasks.entries.map fun e => text "- " ++ e.1 ++ text ": " ++ e.2.description)
  let instructionLines := joinTexts (text "\n\n")
    (repository.instructionFiles.map fun f => text "## " ++ f.path.text ++ newline ++ f.content)
  let dirtyLines := joinTexts newline (repository.dirtyPaths.map PurePath.text)
  text "Objective:\n" ++ objective.prompt ++
    text "\n\nProject path:\n" ++ objective.projectPath.text ++
    text "\n\nRepository instructions:\n" ++ orElseText instructionLines (text "(none)") ++
    text "\n\nDirty paths:\n" ++ orElseText dirtyLines (text "(clean)") ++
    text "\n\nConfigured task identifiers and descriptions:\n" ++ taskLines ++
    text "\n\nReturn work items only. Choose task identifiers from the list above; do not " ++
    text "assign concrete models. The response must satisfy this JSON Schema:\n" ++ schemaText

end GoalRouter
