import GoalRouter.Domain
import GoalRouter.Decoding
import GoalRouter.Library.JsonCopy
import GoalRouter.Library.JsonText

namespace GoalRouter
open Library
set_option autoImplicit true

/-- The field decoders of a persisted run. -/
def stateDecoder : Decoder := ⟨text "Missing run-state field: ", .stateError, .stateError⟩

namespace StateField

abbrev field := stateDecoder.field
abbrev mapping := stateDecoder.mapping
abbrev plainString := stateDecoder.plainString
abbrev string := stateDecoder.required stateDecoder.plainString
abbrev boolean := stateDecoder.required stateDecoder.plainBoolean
abbrev integer := stateDecoder.required stateDecoder.plainInteger
abbrev number := stateDecoder.required stateDecoder.plainNumber
abbrev sequence := stateDecoder.required stateDecoder.plainSequence
abbrev fieldMapping := stateDecoder.required stateDecoder.mapping

def optionalString (value : Fields) (name : Text) : Except PyError (Option Text) :=
  field value name >>= fun
    | .null => .ok none
    | j => (plainString name j).map some

def datetime (value : Fields) (name : Text) : Except PyError DateTime :=
  string value name >>= fun raw =>
    match DateTime.fromIsoformat raw with
    | none => .error (stateError (text "Expected ISO datetime for " ++ name))
    | some parsed =>
      if parsed.offset = none then
        .error (stateError (text "Expected timezone-aware datetime for " ++ name))
      else .ok parsed

def enum (α : Type) [StrEnum α] (value : Fields) (name : Text) : Except PyError α :=
  string value name >>= fun raw =>
    match StrEnum.ofValue? α raw with
    | some a => .ok a
    | none => .error (stateError (text "Unknown " ++ name ++ text ": " ++ raw))

/-- An array whose elements are all read by `read` under the given context. -/
def elements (read : Text → Json → Except PyError α) (context : Text) (value : Fields)
    (name : Text) : Except PyError (List α) :=
  sequence value name >>= fun xs => xs.mapM (read context)

def strings (value : Fields) (name context : Text) : Except PyError (List Text) :=
  elements plainString context value name

def paths (value : Fields) (name context : Text) : Except PyError (List PurePath) :=
  (strings value name context).map fun ts => ts.map PurePath.ofText

end StateField

open StateField

def optionalText : Option Text → Json
  | none => .null
  | some t => .str t

def textArray (ts : List Text) : Json := .arr (ts.map .str)

def pathText (p : PurePath) : Json := .str p.text

def pathArray (ps : List PurePath) : Json := .arr (ps.map pathText)

def enumText [StrEnum α] (a : α) : Json := .str (StrEnum.value a)

def InstructionFile.fields (f : InstructionFile) : Fields :=
  [(text "path", pathText f.path), (text "content", .str f.content)]

def InstructionFile.toDict (f : InstructionFile) : Json := .obj f.fields

def InstructionFile.fromDict (value : Fields) : Except PyError InstructionFile := do
  let path ← string value (text "path")
  let content ← string value (text "content")
  return ⟨PurePath.ofText path, content⟩

def Objective.fields (o : Objective) : Fields :=
  [
    (text "id", .str o.id),
    (text "prompt", .str o.prompt),
    (text "project_path", pathText o.projectPath),
    (text "explicit_task", optionalText o.explicitTask),
    (text "config_path", pathText o.configPath),
    (text "created_at", .str o.createdAt.isoformat)]

def Objective.toDict (o : Objective) : Json := .obj o.fields

def Objective.fromDict (value : Fields) : Except PyError Objective := do
  let id ← string value (text "id")
  let prompt ← string value (text "prompt")
  let projectPath ← string value (text "project_path")
  let explicitTask ← optionalString value (text "explicit_task")
  let configPath ← string value (text "config_path")
  let createdAt ← datetime value (text "created_at")
  return { id, prompt, projectPath := PurePath.ofText projectPath, explicitTask,
           configPath := PurePath.ofText configPath, createdAt }

def languageCountFields (e : Text × Int) : Fields :=
  [(text "language", .str e.1), (text "count", .int e.2)]

def languageCount (e : Text × Int) : Json := .obj (languageCountFields e)

def languageCountOf (context : Text) (j : Json) : Except PyError (Text × Int) := do
  let fields ← mapping context j
  let language ← string fields (text "language")
  let count ← integer fields (text "count")
  return (language, count)

def instructionFileOf (context : Text) (j : Json) : Except PyError InstructionFile :=
  mapping context j >>= InstructionFile.fromDict

def RepositoryContext.fields (r : RepositoryContext) : Fields :=
  [
    (text "project_path", pathText r.projectPath),
    (text "is_git_worktree", .bool r.isGitWorktree),
    (text "branch", optionalText r.branch),
    (text "dirty_paths", pathArray r.dirtyPaths),
    (text "instruction_files", .arr (r.instructionFiles.map InstructionFile.toDict)),
    (text "language_counts", .arr (r.languageCounts.map languageCount)),
    (text "docker_files", pathArray r.dockerFiles),
    (text "command_errors", textArray r.commandErrors)]

def RepositoryContext.toDict (r : RepositoryContext) : Json := .obj r.fields

def RepositoryContext.fromDict (value : Fields) : Except PyError RepositoryContext := do
  let instructionFiles ← elements instructionFileOf (text "instruction_files item") value
    (text "instruction_files")
  let languageCounts ← elements languageCountOf (text "language_counts item") value
    (text "language_counts")
  let projectPath ← string value (text "project_path")
  let isGitWorktree ← boolean value (text "is_git_worktree")
  let branch ← optionalString value (text "branch")
  let dirtyPaths ← paths value (text "dirty_paths") (text "dirty_paths item")
  let dockerFiles ← paths value (text "docker_files") (text "docker_files item")
  let commandErrors ← strings value (text "command_errors") (text "command_errors item")
  return { projectPath := PurePath.ofText projectPath, isGitWorktree, branch, dirtyPaths,
           instructionFiles, languageCounts, dockerFiles, commandErrors }

def WorkItem.fields (i : WorkItem) : Fields :=
  [
    (text "id", .str i.id),
    (text "title", .str i.title),
    (text "instructions", .str i.instructions),
    (text "task", .str i.task),
    (text "phase", .str i.phase),
    (text "dependencies", textArray i.dependencies),
    (text "access", enumText i.access),
    (text "affected_paths", pathArray i.affectedPaths),
    (text "expected_result", .str i.expectedResult),
    (text "verification", textArray i.verification),
    (text "confidence", .float i.confidence),
    (text "risk_flags", textArray i.riskFlags.keys)]

def WorkItem.toDict (i : WorkItem) : Json := .obj i.fields

def WorkItem.fromDict (value : Fields) : Except PyError WorkItem := do
  let id ← string value (text "id")
  let title ← string value (text "title")
  let instructions ← string value (text "instructions")
  let task ← string value (text "task")
  let phase ← string value (text "phase")
  let dependencies ← strings value (text "dependencies") (text "dependencies item")
  let access ← enum AccessMode value (text "access")
  let affectedPaths ← paths value (text "affected_paths") (text "affected_paths item")
  let expectedResult ← string value (text "expected_result")
  let verification ← strings value (text "verification") (text "verification item")
  let confidence ← number value (text "confidence")
  let riskFlags ← strings value (text "risk_flags") (text "risk_flags item")
  return { id, title, instructions, task, phase, dependencies, access, affectedPaths,
           expectedResult, verification, confidence, riskFlags := TextSet.ofTexts riskFlags }

def RouteDecision.fields (r : RouteDecision) : Fields :=
  [
    (text "task", .str r.task),
    (text "model_alias", .str r.modelAlias),
    (text "model", .str r.model),
    (text "reasoning_effort", .str r.reasoningEffort),
    (text "sandbox", enumText r.sandbox),
    (text "approval", enumText r.approval),
    (text "timeout_seconds", .int r.timeoutSeconds),
    (text "max_attempts", .int r.maxAttempts),
    (text "destructive", .bool r.destructive),
    (text "external_write", .bool r.externalWrite),
    (text "escalation_task", optionalText r.escalationTask),
    (text "source", enumText r.source),
    (text "reason", .str r.reason)]

def RouteDecision.toDict (r : RouteDecision) : Json := .obj r.fields

def RouteDecision.fromDict (value : Fields) : Except PyError RouteDecision := do
  let task ← string value (text "task")
  let modelAlias ← string value (text "model_alias")
  let model ← string value (text "model")
  let reasoningEffort ← string value (text "reasoning_effort")
  let sandbox ← enum SandboxMode value (text "sandbox")
  let approval ← enum ApprovalMode value (text "approval")
  let timeoutSeconds ← integer value (text "timeout_seconds")
  let maxAttempts ← integer value (text "max_attempts")
  let destructive ← boolean value (text "destructive")
  let externalWrite ← boolean value (text "external_write")
  let escalationTask ← optionalString value (text "escalation_task")
  let source ← enum RouteSource value (text "source")
  let reason ← string value (text "reason")
  return { task, modelAlias, model, reasoningEffort, sandbox, approval, timeoutSeconds,
           maxAttempts, destructive, externalWrite, escalationTask, source, reason }

def WorkResult.fields (r : WorkResult) : Fields :=
  [
    (text "work_item_id", .str r.workItemId),
    (text "thread_id", optionalText r.threadId),
    (text "turn_id", optionalText r.turnId),
    (text "status", enumText r.status),
    (text "final_response", optionalText r.finalResponse),
    (text "sdk_items", .arr r.sdkItems),
    (text "input_tokens", .int r.inputTokens),
    (text "cached_input_tokens", .int r.cachedInputTokens),
    (text "output_tokens", .int r.outputTokens),
    (text "duration_seconds", .float r.durationSeconds),
    (text "changed_paths", pathArray r.changedPaths),
    (text "verification", textArray r.verification),
    (text "confidence", .float r.confidence),
    (text "escalation_requested", .bool r.escalationRequested),
    (text "error", optionalText r.error)]

def WorkResult.toDict (r : WorkResult) : Json := .obj r.fields

/-- The limits of the interpreter: the digits of an integer that is printed or parsed, the brackets
that `json.dumps` and `json.loads` follow, the calls that are left to a recursive function of the
source, and those that its test of a mapping opens. -/
structure InterpreterLimits where
  digits : Nat
  nesting : Nat
  calls : Nat
  keyCalls : Nat

/-- The limits of an interpreter as it starts. -/
def usualLimits : InterpreterLimits where
  digits := 4300
  nesting := 990
  calls := 980
  keyCalls := 2

/-- What `json.dumps` raises for a value. Of a value past both limits the place that comes first
decides; here it is the integer. -/
def dumpsError (limits : InterpreterLimits) (j : Json) : Option PyError :=
  if ¬j.Printable limits.digits then some ⟨.valueError, []⟩
  else if limits.nesting < j.nesting then some recursionError
  else none

theorem dumpsError_eq_none {limits : InterpreterLimits} {j : Json} :
    dumpsError limits j = none ↔ j.Printable limits.digits ∧ j.nesting ≤ limits.nesting := by
  rw [dumpsError]
  split
  · rename_i h
    exact iff_of_false nofun fun hp => h hp.1
  · rename_i h
    rw [not_not] at h
    split
    · exact iff_of_false nofun fun hn => absurd hn.2 (Nat.not_le.2 ‹_›)
    · exact iff_of_true rfl ⟨h, Nat.not_lt.1 ‹_›⟩

/-- `_json_value` as a copy: its test of a mapping opens so many calls. -/
def jsonCopy (keyCalls : Nat) : Json.Copy where
  leaf := id
  replaced _ := none
  keyCalls _ := keyCalls

/-- `_json_value` where so many calls are left of the recursion limit. -/
def jsonValueWithin (keyCalls room : Nat) (j : Json) : Except PyError Json :=
  match (jsonCopy keyCalls).within j room with
  | some v => .ok v
  | none => .error recursionError

/-- `WorkResult.from_dict`, for what `_json_value` makes of a value. -/
def WorkResult.fromDictWith (jsonValue : Json → Except PyError Json) (value : Fields) :
    Except PyError WorkResult := do
  let workItemId ← string value (text "work_item_id")
  let threadId ← optionalString value (text "thread_id")
  let turnId ← optionalString value (text "turn_id")
  let status ← enum WorkStatus value (text "status")
  let finalResponse ← optionalString value (text "final_response")
  let sdkItems ← elements (fun _ => jsonValue) [] value (text "sdk_items")
  let inputTokens ← integer value (text "input_tokens")
  let cachedInputTokens ← integer value (text "cached_input_tokens")
  let outputTokens ← integer value (text "output_tokens")
  let durationSeconds ← number value (text "duration_seconds")
  let changedPaths ← paths value (text "changed_paths") (text "changed_paths item")
  let verification ← strings value (text "verification") (text "verification item")
  let confidence ← number value (text "confidence")
  let escalationRequested ← boolean value (text "escalation_requested")
  let error ← optionalString value (text "error")
  return { workItemId, threadId, turnId, status, finalResponse, sdkItems, inputTokens,
           cachedInputTokens, outputTokens, durationSeconds, changedPaths, verification,
           confidence, escalationRequested, error }

/-- `WorkResult.from_dict` where the recursion limit is not reached: `_json_value` copies a JSON
value, and `Json` holds no other. -/
def WorkResult.fromDict : Fields → Except PyError WorkResult := WorkResult.fromDictWith .ok

def ApprovalRecord.fields (r : ApprovalRecord) : Fields :=
  [
    (text "run_id", .str r.runId),
    (text "work_item_id", .str r.workItemId),
    (text "approved_by", .str r.approvedBy),
    (text "approved_at", .str r.approvedAt.isoformat),
    (text "configuration_digest", .str r.configurationDigest),
    (text "fingerprint", .str r.fingerprint)]

def ApprovalRecord.toDict (r : ApprovalRecord) : Json := .obj r.fields

def ApprovalRecord.fromDict (value : Fields) : Except PyError ApprovalRecord := do
  let runId ← string value (text "run_id")
  let workItemId ← string value (text "work_item_id")
  let approvedBy ← string value (text "approved_by")
  let approvedAt ← datetime value (text "approved_at")
  let configurationDigest ← string value (text "configuration_digest")
  let fingerprint ← string value (text "fingerprint")
  return { runId, workItemId, approvedBy, approvedAt, configurationDigest, fingerprint }

def RunEvent.fields (e : RunEvent) : Fields :=
  [
    (text "timestamp", .str e.timestamp.isoformat),
    (text "event", .str e.event),
    (text "work_item_id", optionalText e.workItemId),
    (text "details", .obj e.details)]

def RunEvent.toDict (e : RunEvent) : Json := .obj e.fields

/-- A dictionary of records, its keys in order. -/
def dictOf (toDict : α → Json) (m : Dict Text α) : Json :=
  .obj (m.sorted.entries.map fun e => (e.1, toDict e.2))

def RunState.fields (s : RunState) : Fields :=
  [
    (text "schema_version", .int s.schemaVersion),
    (text "configuration_digest", .str s.configurationDigest),
    (text "objective", s.objective.toDict),
    (text "repository", s.repository.toDict),
    (text "work_items", dictOf WorkItem.toDict s.workItems),
    (text "routes", dictOf RouteDecision.toDict s.routes),
    (text "results", dictOf WorkResult.toDict s.results),
    (text "approvals", dictOf ApprovalRecord.toDict s.approvals),
    (text "status", enumText s.status)]

def RunState.toDict (s : RunState) : Json := .obj s.fields

/-- One record of a dictionary, named by its key in an error. -/
def recordOf (fromDict : Fields → Except PyError α) (name : Text) (e : Text × Json) :
    Except PyError (Text × α) := do
  let item ← mapping (name ++ text "." ++ e.1) e.2
  let record ← fromDict item
  return (e.1, record)

def recordsOf (fromDict : Fields → Except PyError α) (value : Fields) (name : Text) :
    Except PyError (Dict Text α) := do
  let fields ← fieldMapping value name
  let entries ← fields.mapM (recordOf fromDict name)
  return Dict.ofList entries

/-- `except (TypeError, ValueError)`. -/
def catchInvalid : Except PyError α → Except PyError α
  | .error ⟨.valueError, message⟩ => .error (stateError (text "Invalid run state: " ++ message))
  | result => result

theorem catchInvalid_ok {α : Type} {x : Except PyError α} {a : α} (h : catchInvalid x = .ok a) :
    x = .ok a := by
  rw [catchInvalid.eq_def] at h
  split at h
  · cases h
  · exact h

/-- `RunState.from_dict`, for what `_json_value` makes of a value. -/
def RunState.fromDictWith (jsonValue : Json → Except PyError Json) (value : Fields) :
    Except PyError RunState := catchInvalid do
  let workItems ← recordsOf WorkItem.fromDict value (text "work_items")
  let routes ← recordsOf RouteDecision.fromDict value (text "routes")
  let results ← recordsOf (WorkResult.fromDictWith jsonValue) value (text "results")
  let approvals ← recordsOf ApprovalRecord.fromDict value (text "approvals")
  let schemaVersion ← integer value (text "schema_version")
  let configurationDigest ← string value (text "configuration_digest")
  let objective ← fieldMapping value (text "objective") >>= Objective.fromDict
  let repository ← fieldMapping value (text "repository") >>= RepositoryContext.fromDict
  let status ← enum RunStatus value (text "status")
  return { schemaVersion, configurationDigest, objective, repository, workItems, routes, results,
           approvals, status }

/-- `RunState.from_dict` where the recursion limit is not reached. -/
def RunState.fromDict : Fields → Except PyError RunState := RunState.fromDictWith .ok

section Within

open Json

variable (keyCalls room : Nat)

theorem jsonCopy_apply (j : Json) : (jsonCopy keyCalls).apply j = j := by
  induction j using Json.induct with
  | arr xs ih =>
    rw [Copy.apply, Copy.applyList_eq_map, List.map_congr_left ih, List.map_id']
  | obj fields ih =>
    rw [Copy.apply, Copy.applyFields_eq_map]
    conv => rhs; rw [← List.map_id fields]
    refine congrArg _ (List.map_congr_left fun e he => ?_)
    rw [ih e he]
    rfl
  | _ => rfl

theorem jsonValueWithin_eq (j : Json) : jsonValueWithin keyCalls room j =
    if (jsonCopy keyCalls).depth j ≤ room then .ok j else .error recursionError := by
  rw [jsonValueWithin, Copy.within_eq, jsonCopy_apply]
  by_cases hd : (jsonCopy keyCalls).depth j ≤ room <;> simp only [hd, ↓reduceIte]

theorem jsonValueWithin_ok {keyCalls room : Nat} {j v : Json}
    (h : jsonValueWithin keyCalls room j = .ok v) : v = j := by
  rw [jsonValueWithin_eq] at h
  split at h
  · exact (Except.ok.inj h).symm
  · cases h

end Within

end GoalRouter
