import GoalRouter.Host
import GoalRouter.Decoding

namespace GoalRouter
open Library
set_option autoImplicit true

structure RouterConfig where
  schemaVersion : Int
  defaultTask : Text
  plannerTask : Text
  completionTask : Text
  maximumReadConcurrency : Int
  repositoryInspectionTimeoutSeconds : Int
  modelAliases : Dict Text ModelAlias
  tasks : Dict Text TaskPolicy
  matching : List MatchRule
  hardRiskRules : List HardRiskRule
  digest : Text
  deriving DecidableEq

namespace ConfigSchema

def modelAlias : Schema := .allOf <|
  closedObject [text "model", text "reasoning-effort", text "rank"] [
    (text "model", nonEmptyString),
    (text "reasoning-effort", .enum [text "low", text "medium", text "high", text "xhigh",
      text "max", text "ultra"]),
    (text "rank", .allOf [.type .integer, .minimum 1])]

def taskPolicy : Schema := .allOf <|
  closedObject [text "description", text "model-alias", text "sandbox", text "approval",
      text "timeout-seconds", text "max-attempts"] [
    (text "description", nonEmptyString),
    (text "model-alias", identifierSchema),
    (text "sandbox", .enum [text "read-only", text "workspace-write"]),
    (text "approval", .enum [text "automatic", text "required"]),
    (text "timeout-seconds", .allOf [.type .integer, .minimum 1]),
    (text "max-attempts", .allOf [.type .integer, .minimum 1]),
    (text "destructive", .type .boolean),
    (text "external-write", .type .boolean),
    (text "escalate-to", identifierSchema)]

def matchRule : Schema := .allOf <|
  .anyOf [.required [text "phrases"], .required [text "file-globs"]] ::
  closedObject [text "task"] [
    (text "task", identifierSchema),
    (text "phrases", uniqueStrings nonEmptyString),
    (text "file-globs", uniqueStrings nonEmptyString)]

def hardRiskRule : Schema := .allOf <|
  .anyOf [.required [text "minimum-model-alias"], .required [text "approval"]] ::
  closedObject [text "flag"] [
    (text "flag", identifierSchema),
    (text "minimum-model-alias", identifierSchema),
    (text "approval", .enum [text "automatic", text "required"])]

/-- A non-empty object with identifiers for names. -/
def table (entry : Schema) : Schema :=
  .allOf [.type .object, .minProperties 1, .propertyNames identifierSchema,
    .additionalProperties entry]

/-- `task-models.schema.json`. -/
def routerConfig : Schema := .allOf <|
  closedObject [text "schema-version", text "default-task", text "planner-task",
      text "completion-task", text "maximum-read-concurrency",
      text "repository-inspection-timeout-seconds", text "model-aliases", text "tasks"] [
    (text "schema-version", .const 1),
    (text "default-task", identifierSchema),
    (text "planner-task", identifierSchema),
    (text "completion-task", identifierSchema),
    (text "maximum-read-concurrency", .allOf [.type .integer, .minimum 1]),
    (text "repository-inspection-timeout-seconds", .allOf [.type .integer, .minimum 1]),
    (text "model-aliases", table modelAlias),
    (text "tasks", table taskPolicy),
    (text "matching", .allOf [.type .array, .items matchRule]),
    (text "hard-risk-rules", .allOf [.type .array, .items hardRiskRule])]

end ConfigSchema

def configurationError (message : Text) : PyError := ⟨.configurationError, message⟩

/-- The field decoders of the routing configuration. -/
def configDecoder : Decoder :=
  ⟨text "Missing configuration field: ", .configurationError, .configurationError⟩

namespace ConfigField

abbrev field := configDecoder.field
abbrev mapping := configDecoder.mapping
abbrev string := configDecoder.required configDecoder.plainString
abbrev integer := configDecoder.required configDecoder.plainInteger

def optionalString (raw : Fields) (name : Text) : Except PyError (Option Text) :=
  match lookup name raw with
  | none | some .null => .ok none
  | some j => (configDecoder.plainString name j).map some

def optionalBoolean (raw : Fields) (name : Text) (fallback : Bool) : Except PyError Bool :=
  match lookup name raw with
  | none => .ok fallback
  | some j => configDecoder.plainBoolean name j

def optionalSequence (raw : Fields) (name : Text) : Except PyError (List Json) :=
  match lookup name raw with
  | none => .ok []
  | some j => configDecoder.plainSequence name j

def strings (values : List Json) (context : Text) : Except PyError (List Text) :=
  values.mapM fun
    | .str t => .ok t
    | _ => .error (configurationError (text "Expected strings for " ++ context))

/-- `ApprovalMode(t)` and its like, which raise `ValueError`. -/
def enumOf (α : Type) [StrEnum α] (t : Text) : Except PyError α :=
  match StrEnum.ofValue? α t with
  | some a => .ok a
  | none => .error ⟨.valueError, t⟩

end ConfigField

open ConfigField

section Semantics

variable (host : Host) (configPath : PurePath)

def inPath : Text := text " in " ++ configPath.text

/-- Each alias has a positive rank of its own; `ranks` holds those seen so far. -/
def validateRanks : Fields → List (Int × Text) → Except PyError Unit
  | [], _ => .ok ()
  | (name, value) :: rest, ranks => do
    let entry ← mapping (text "model-aliases." ++ name) value
    let rank ← integer entry (text "rank")
    if rank ≤ 0 then
      .error (configurationError
        (text "Invalid model alias rank for " ++ name ++ inPath configPath))
    match lookup rank ranks with
    | some other => .error (configurationError
        (text "Duplicate model alias rank " ++ decimal rank ++ text " for " ++ other ++
          text " and " ++ name ++ inPath configPath))
    | none => validateRanks rest ((rank, name) :: ranks)

def validateTaskReference (raw tasks : Fields) (field : Text) : Except PyError Unit := do
  let taskName ← string raw field
  if (lookup taskName tasks).isNone then
    .error (configurationError
      (text "Unknown " ++ field ++ text " " ++ host.repr taskName ++ inPath configPath))

def validateTask (aliases tasks : Fields) (entry : Text × Json) : Except PyError Unit := do
  let task ← mapping (text "tasks." ++ entry.1) entry.2
  let aliasName ← string task (text "model-alias")
  if (lookup aliasName aliases).isNone then
    .error (configurationError (text "Task " ++ host.repr entry.1 ++
      text " references unknown model alias " ++ host.repr aliasName ++ inPath configPath))
  match ← optionalString task (text "escalate-to") with
  | none => pure ()
  | some escalation =>
    if (lookup escalation tasks).isNone then
      .error (configurationError (text "Task " ++ host.repr entry.1 ++
        text " references unknown escalation " ++ host.repr escalation ++ inPath configPath))

def indexed (name : Text) (i : Nat) : Text := name ++ text "[" ++ decimal i ++ text "]"

def validateMatchRule (tasks : Fields) (i : Nat) (value : Json) : Except PyError Unit := do
  let rule ← mapping (indexed (text "matching") i) value
  let taskName ← string rule (text "task")
  if (lookup taskName tasks).isNone then
    .error (configurationError (text "Matching rule " ++ decimal i ++
      text " references unknown task " ++ host.repr taskName ++ inPath configPath))

def validateRiskRule (aliases : Fields) (i : Nat) (value : Json) : Except PyError Unit := do
  let rule ← mapping (indexed (text "hard-risk-rules") i) value
  match ← optionalString rule (text "minimum-model-alias") with
  | none => pure ()
  | some name =>
    if (lookup name aliases).isNone then
      .error (configurationError (text "Hard-risk rule " ++ decimal i ++
        text " references unknown alias " ++ host.repr name ++ inPath configPath))

/-- `enumerate` over a list, for checks and for parsers. -/
def forIndexed (f : Nat → α → Except PyError β) (xs : List α) : Except PyError (List β) :=
  xs.zipIdx.mapM fun e => f e.2 e.1

def validateSemantics (raw : Fields) : Except PyError Unit := do
  let aliases ← field raw (text "model-aliases") >>= mapping (text "model-aliases")
  let tasks ← field raw (text "tasks") >>= mapping (text "tasks")
  validateRanks configPath aliases []
  validateTaskReference host configPath raw tasks (text "default-task")
  validateTaskReference host configPath raw tasks (text "planner-task")
  validateTaskReference host configPath raw tasks (text "completion-task")
  let _ ← tasks.mapM (validateTask host configPath aliases tasks)
  let matching ← optionalSequence raw (text "matching")
  let _ ← forIndexed (validateMatchRule host configPath tasks) matching
  let rules ← optionalSequence raw (text "hard-risk-rules")
  let _ ← forIndexed (validateRiskRule host configPath aliases) rules

end Semantics

def parseModelAlias (name : Text) (raw : Fields) : Except PyError ModelAlias := do
  let model ← string raw (text "model")
  let reasoningEffort ← string raw (text "reasoning-effort")
  let rank ← integer raw (text "rank")
  return { name, model, reasoningEffort, rank }

def parseTaskPolicy (name : Text) (raw : Fields) : Except PyError TaskPolicy := do
  let description ← string raw (text "description")
  let modelAlias ← string raw (text "model-alias")
  let sandbox ← string raw (text "sandbox") >>= enumOf SandboxMode
  let approval ← string raw (text "approval") >>= enumOf ApprovalMode
  let timeoutSeconds ← integer raw (text "timeout-seconds")
  let maxAttempts ← integer raw (text "max-attempts")
  let destructive ← optionalBoolean raw (text "destructive") false
  let externalWrite ← optionalBoolean raw (text "external-write") false
  let escalateTo ← optionalString raw (text "escalate-to")
  return { task := name, description, modelAlias, sandbox, approval, timeoutSeconds, maxAttempts,
           destructive, externalWrite, escalateTo }

def parseMatchRule (raw : Fields) : Except PyError MatchRule := do
  let task ← string raw (text "task")
  let phrases ← optionalSequence raw (text "phrases") >>= (strings · (text "phrases"))
  let fileGlobs ← optionalSequence raw (text "file-globs") >>= (strings · (text "file-globs"))
  return { task, phrases, fileGlobs }

def parseHardRiskRule (raw : Fields) : Except PyError HardRiskRule := do
  let approval ← optionalString raw (text "approval")
  let flag ← string raw (text "flag")
  let minimumModelAlias ← optionalString raw (text "minimum-model-alias")
  match approval with
  | none => return { flag, minimumModelAlias, approval := none }
  | some t =>
    let approval ← enumOf ApprovalMode t
    return { flag, minimumModelAlias, approval := some approval }

/-- The parsed entries of a table, each under its name. -/
def parseTable (parse : Text → Fields → Except PyError α) (table : Fields) (context : Text) :
    Except PyError (Dict Text α) := do
  let entries ← table.mapM fun e => do
    let entry ← mapping (context ++ text "." ++ e.1) e.2
    let parsed ← parse e.1 entry
    return (e.1, parsed)
  return Dict.ofList entries

def parseRouterConfig (raw : Fields) (digest : Text) : Except PyError RouterConfig := do
  let aliasesRaw ← field raw (text "model-aliases") >>= mapping (text "model-aliases")
  let tasksRaw ← field raw (text "tasks") >>= mapping (text "tasks")
  let modelAliases ← parseTable parseModelAlias aliasesRaw (text "model-aliases")
  let tasks ← parseTable parseTaskPolicy tasksRaw (text "tasks")
  let matchingRaw ← optionalSequence raw (text "matching")
  let matching ← forIndexed
    (fun i value => mapping (indexed (text "matching") i) value >>= parseMatchRule) matchingRaw
  let rulesRaw ← optionalSequence raw (text "hard-risk-rules")
  let hardRiskRules ← forIndexed
    (fun i value => mapping (indexed (text "hard-risk-rules") i) value >>= parseHardRiskRule)
    rulesRaw
  let schemaVersion ← integer raw (text "schema-version")
  let defaultTask ← string raw (text "default-task")
  let plannerTask ← string raw (text "planner-task")
  let completionTask ← string raw (text "completion-task")
  let maximumReadConcurrency ← integer raw (text "maximum-read-concurrency")
  let repositoryInspectionTimeoutSeconds ←
    integer raw (text "repository-inspection-timeout-seconds")
  return { schemaVersion, defaultTask, plannerTask, completionTask, maximumReadConcurrency,
           repositoryInspectionTimeoutSeconds, modelAliases, tasks, matching, hardRiskRules,
           digest }

def validateJsonSchema (host : Host) (configPath : PurePath) (raw : Fields) :
    Except PyError Unit :=
  if ConfigSchema.routerConfig.accepts (.obj raw) then .ok ()
  else
    let (location, message) := host.schemaError ConfigSchema.routerConfig (.obj raw)
    .error (configurationError (text "Invalid routing configuration " ++ configPath.text ++
      text " at " ++ location ++ text ": " ++ message))

/-- `load_router_config`, from the value the YAML file holds and the digest of its bytes. -/
def loadRouterConfig (host : Host) (configPath : PurePath) (loaded : Json) (digest : Text) :
    Except PyError RouterConfig := do
  let raw ← mapping (text "routing configuration " ++ configPath.text) loaded
  validateJsonSchema host configPath raw
  validateSemantics host configPath raw
  parseRouterConfig raw digest

/-- A routing configuration that `loadRouterConfig` accepted. -/
structure AcceptedConfig (host : Host) where
  config : RouterConfig
  path : PurePath
  accepted : ∃ loaded digest, loadRouterConfig host path loaded digest = .ok config

/-- The schema bounds the concurrency of an accepted configuration from below. -/
theorem AcceptedConfig.maximumReadConcurrency_pos {host : Host} (accepted : AcceptedConfig host) :
    1 ≤ accepted.config.maximumReadConcurrency := by
  obtain ⟨loaded, digest, h⟩ := accepted.accepted
  obtain ⟨raw, _, h⟩ := bind_ok h
  obtain ⟨_, hschema, h⟩ := bind_ok h
  obtain ⟨_, _, h⟩ := bind_ok h
  have haccepts : ConfigSchema.routerConfig.accepts (.obj raw) = true := by
    rw [validateJsonSchema] at hschema
    split at hschema
    · assumption
    · cases hschema
  obtain ⟨_, _, h⟩ := bind_ok h
  obtain ⟨_, _, h⟩ := bind_ok h
  obtain ⟨_, _, h⟩ := bind_ok h
  obtain ⟨_, _, h⟩ := bind_ok h
  obtain ⟨_, _, h⟩ := bind_ok h
  obtain ⟨_, _, h⟩ := bind_ok h
  obtain ⟨_, _, h⟩ := bind_ok h
  obtain ⟨_, _, h⟩ := bind_ok h
  obtain ⟨_, _, h⟩ := bind_ok h
  obtain ⟨_, _, h⟩ := bind_ok h
  obtain ⟨_, _, h⟩ := bind_ok h
  obtain ⟨_, _, h⟩ := bind_ok h
  obtain ⟨n, hn, h⟩ := bind_ok h
  obtain ⟨_, _, h⟩ := bind_ok h
  rw [← Except.ok.inj h]
  have hfield : lookup (text "maximum-read-concurrency") raw = some (.int n) := by
    obtain ⟨j, hj, hint⟩ := bind_ok hn
    rw [Decoder.field] at hj
    split at hj <;> cases hj
    cases j <;> cases hint
    assumption
  have hproperty := Schema.accepts_property haccepts (List.mem_of_getElem? (i := 3) rfl)
    (List.mem_of_getElem? (i := 4) rfl) hfield
  simpa [Schema.accepts, JsonType.admits, Json.lessThan] using hproperty

end GoalRouter
