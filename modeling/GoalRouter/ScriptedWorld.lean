import GoalRouter.Application

namespace GoalRouter
open Library
set_option autoImplicit true

/-- A world that answers by a script: how each turn ends, and where the process dies. -/
structure Script where
  turn : Turn → Except PyError SdkTurn
  dies : World → Call → Bool
  repository : RepositoryContext
  models : List Text
  schema : Text
  time : DateTime
  aware : time.offset ≠ none

namespace Script

variable (host : Host) (script : Script)

def outcome (t : Turn) : Outcome :=
  script.turn t >>= normalizeResult t.route (t.threadId.getD (text "thread"))

theorem outcome_ends (t : Turn) : t.Ends (script.outcome t) := by
  rw [outcome]
  cases script.turn t with
  | error e => trivial
  | ok turn =>
    rw [ok_bind]
    cases h : normalizeResult t.route (t.threadId.getD (text "thread")) turn with
    | error e => trivial
    | ok r => exact ⟨_, _, h⟩

/-- The answer to a call of another run, or one that finds the directory in another state. -/
def refuse (w : World) (c : Call) (e : PyError) : Option (Except PyError (Val c) × World) :=
  some (.error e, w.push c (.error e))

def accept (w : World) (c : Call) (v : Val c) : Option (Except PyError (Val c) × World) :=
  some (.ok v, w.push c (.ok v))

/-- What the world answers while the process lives. -/
def respond (w : World) : (c : Call) → Option (Except PyError (Val c) × World)
  | .acquireRun rid => accept w (.acquireRun rid) ()
  | .releaseRun rid => accept w (.releaseRun rid) ()
  | .acquireProject path => accept w (.acquireProject path) ()
  | .releaseProject path => accept w (.releaseProject path) ()
  | .inspect path => accept w (.inspect path) script.repository
  | .availableModels => accept w .availableModels script.models
  | .newRunId => accept w .newRunId w.runId
  | .now => accept w .now script.time
  | .loadSchema => accept w .loadSchema script.schema
  | .startTurn t => accept w (.startTurn t) ()
  | .awaitTurn _ [] => none
  | .awaitTurn b (t :: running) => accept w (.awaitTurn b (t :: running)) (t, script.outcome t)
  | .create s =>
    if s.runId = w.runId ∧ w.dir = .absent then accept (w.land s) (.create s) ()
    else refuse w (.create s) (stateError (text "Cannot create run"))
  | .load rid =>
    if rid = w.runId then
      match loadSync host rid w.dir with
      | .ok s => accept w (.load rid) s
      | .error e => refuse w (.load rid) e
    else refuse w (.load rid) (stateError (text "Run is unreadable"))
  | .save s =>
    if s.runId = w.runId ∧ w.dir ≠ .absent then accept (w.land s) (.save s) ()
    else refuse w (.save s) (stateError (text "Cannot save run"))
  | .appendEvent rid e => accept w (.appendEvent rid e) ()
  | .writeReport rid content => accept w (.writeReport rid content) ()
  | .note n => accept w (.note n) ()

def answer (w : World) (c : Call) : Option (Except PyError (Val c) × World) :=
  if script.dies w c then none else script.respond host w c

/-- A scripted world answers as a world may. -/
theorem answer_next {w w' : World} {c : Call} {r : Except PyError (Val c)}
    (h : script.answer host w c = some (r, w')) : Next host w c r w' := by
  rw [answer] at h
  split at h
  · cases h
  · cases c with
    | acquireRun | releaseRun | acquireProject | releaseProject | appendEvent | writeReport | note
    | startTurn =>
      cases h
      constructor
    | inspect =>
      cases h
      exact .inspect _
    | availableModels =>
      cases h
      exact .availableModels _
    | newRunId =>
      cases h
      exact .newRunId
    | now =>
      cases h
      exact .now _ script.aware
    | loadSchema =>
      cases h
      exact .loadSchema _
    | awaitTurn b running =>
      cases running with
      | nil => cases h
      | cons t running =>
        cases h
        exact .awaitTurn List.mem_cons_self (script.outcome_ends t)
    | create s =>
      rw [respond] at h
      split at h
      · rename_i hc
        cases h
        exact .created hc.1 (by rw [hc.2, createSync]) (.inl rfl)
      · cases h
        exact .raises rfl
    | load rid =>
      rw [respond] at h
      split at h
      · rename_i hr
        split at h
        · rename_i s hl
          cases h
          exact .loaded hr hl
        · cases h
          exact .raises rfl
      · cases h
        exact .raises rfl
    | save s =>
      rw [respond] at h
      split at h
      · rename_i hc
        cases h
        obtain ⟨dir, hd⟩ : ∃ dir, saveSync s w.dir = .ok dir := by
          cases hd : w.dir with
          | absent => exact absurd hd hc.2
          | empty => exact ⟨_, rfl⟩
          | snapshot => exact ⟨_, rfl⟩
        exact .saved hc.1 hd (.inl rfl)
      · cases h
        exact .raises rfl

/-- One session of an operation in a scripted world. -/
def session {host : Host} (app : Application host) (op : Operation) (w : World) : World :=
  ((op.program app).exec (script.answer host) (w.begin app.config)).2

theorem session_reachable {host : Host} (app : Application host) (op : Operation)
    (h : Reachable host w) : Reachable host (script.session app op w) := by
  have ha (w : World) (c : Call) (r : Except PyError (Val c)) (w' : World)
      (hr : script.answer host w c = some (r, w')) : Next host w c r w' :=
    script.answer_next host hr
  exact Reachable.session app op h (Prog.exec_steps ha _ _)

/-- What a session finds on its way stays in the log. -/
theorem session_until {host : Host} {app : Application host} {op : Operation} {found : World → Bool}
    (h : (op.program app).execUntil found (script.answer host) (w.begin app.config) = some w') :
    found w' = true ∧ ∃ events, (script.session app op w).log = events ++ w'.log := by
  have ha (w : World) (c : Call) (r : Except PyError (Val c)) (w' : World)
      (hr : script.answer host w c = some (r, w')) : Next host w c r w' :=
    script.answer_next host hr
  obtain ⟨hfound, q, hq⟩ := Prog.execUntil_some h
  obtain ⟨events, hlog⟩ := steps_log (Prog.exec_steps ha q w')
  refine ⟨hfound, events, ?_⟩
  rw [session, hq, hlog]

end Script

section Sample

/-- The inside of a JSON string of printable ASCII and line feeds. -/
def renderText (t : Text) : Text :=
  t.flatMap fun c =>
    if c = 0x22 || c = 0x5C then [0x5C, c] else if c = 0x0A then text "\\n" else [c]

mutual
/-- `json.dumps(value, sort_keys=True, separators=(",", ":"))` of a value whose floats are 0 or
1. -/
def renderJson : Json → Text
  | .null => text "null"
  | .bool b => text (if b then "true" else "false")
  | .int n => decimal n
  | .float x => text (if x = PyFloat.one then "1.0" else "0.0")
  | .str t => [0x22] ++ renderText t ++ [0x22]
  | .arr xs => [0x5B] ++ joinTexts [0x2C] (renderList xs) ++ [0x5D]
  | .obj fields => [0x7B] ++ joinTexts [0x2C]
      ((SortedMap.ofList (renderFields fields)).entries.map fun e =>
        [0x22] ++ renderText e.1 ++ [0x22, 0x3A] ++ e.2) ++ [0x7D]

def renderList : List Json → List Text
  | [] => []
  | x :: xs => renderJson x :: renderList xs

def renderFields : Fields → List (Text × Text)
  | [] => []
  | (k, x) :: fields => (k, renderJson x) :: renderFields fields
end

def sampleItem (id access : String) (dependencies : List String) : Json := .obj [
  (text "id", .str (text id)),
  (text "title", .str (text "Title")),
  (text "instructions", .str (text "Do it")),
  (text "task", .str (text "work")),
  (text "phase", .str (text "one")),
  (text "dependencies", .arr (dependencies.map fun d => .str (text d))),
  (text "access", .str (text access)),
  (text "affected-paths", .arr []),
  (text "expected-result", .str (text "Done")),
  (text "verification", .arr [.str (text "Look")]),
  (text "confidence", .int 1),
  (text "risk-flags", .arr [])]

def singlePlan : Json :=
  .obj [(text "work-items", .arr [sampleItem "a" "read-only" []])]

/-- An item whose id is shaped like a secret, and one that depends on it. -/
def secretPlan : Json := .obj [(text "work-items",
  .arr [sampleItem "sk-abcdef" "read-only" [], sampleItem "b" "read-only" ["sk-abcdef"]])]

/-- Three items, each but the first depending on the one before it. -/
def dependentPlan : Json := .obj [(text "work-items", .arr [sampleItem "a" "read-only" [],
  sampleItem "b" "read-only" ["a"], sampleItem "c" "read-only" ["b"]])]

/-- The item of `singlePlan`, and its route where work requires approval. -/
def singleItem : WorkItem where
  id := text "a"
  title := text "Title"
  instructions := text "Do it"
  task := text "work"
  phase := text "one"
  dependencies := []
  access := .readOnly
  affectedPaths := []
  expectedResult := text "Done"
  verification := [text "Look"]
  confidence := PyFloat.one
  riskFlags := ∅

def singleDecision : RouteDecision where
  task := text "work"
  modelAlias := text "base"
  model := text "model"
  reasoningEffort := text "low"
  sandbox := .readOnly
  approval := .required
  timeoutSeconds := 600
  maxAttempts := 1
  destructive := false
  externalWrite := false
  escalationTask := none
  source := .planner
  reason := text "planner task 'work'"

/-- The digest of the one payload that the sample runs fingerprint. -/
def sampleSha256 (t : Text) : Text :=
  if t = renderJson (fingerprintPayload (text "digest") singleItem singleDecision) then
    text "36e76082e97a0e92cc5aacc01ef574392acd35507df3769b1354e2a318f256dc"
  else []

/-- What the code calls outside, as it behaves on the sample runs. -/
def sampleHost : Host where
  repr t := text "'" ++ t ++ text "'"
  reprJson _ := text "None"
  fold := casefold
  fnmatchcase t pattern := t = pattern
  canonicalDumps := renderJson
  loads t :=
    match [singlePlan, secretPlan, dependentPlan].find? fun plan => renderJson plan = t with
    | some plan => .ok plan
    | none => .error (text "Expecting value: line 1 column 1 (char 0)")
  sha256 := sampleSha256
  schemaError _ _ := (text "$", text "invalid")
  resolve p := .ok p
  render _ := .ok (text "# Run report")

def samplePolicy (description sandbox approval : Text) : Json := .obj [
  (text "description", .str description),
  (text "model-alias", .str (text "base")),
  (text "sandbox", .str sandbox),
  (text "approval", .str approval),
  (text "timeout-seconds", .int 600),
  (text "max-attempts", .int 1)]

/-- A routing configuration with a task each for planning, review and work. -/
def sampleYaml (planning working : ApprovalMode) (sandbox : SandboxMode) : Json := .obj [
  (text "schema-version", .int 1),
  (text "default-task", .str (text "work")),
  (text "planner-task", .str (text "plan")),
  (text "completion-task", .str (text "review")),
  (text "maximum-read-concurrency", .int 2),
  (text "repository-inspection-timeout-seconds", .int 60),
  (text "model-aliases", .obj [(text "base", .obj [(text "model", .str (text "model")),
    (text "reasoning-effort", .str (text "low")), (text "rank", .int 1)])]),
  (text "tasks", .obj [
    (text "plan", samplePolicy (text "Plan") (text "read-only") (StrEnum.value planning)),
    (text "review", samplePolicy (text "Review") (text "read-only") (text "automatic")),
    (text "work", samplePolicy (text "Work") (StrEnum.value sandbox) (StrEnum.value working))])]

def sampleTask (task description : Text) (sandbox : SandboxMode) (approval : ApprovalMode) :
    TaskPolicy where
  task := task
  description := description
  modelAlias := text "base"
  sandbox := sandbox
  approval := approval
  timeoutSeconds := 600
  maxAttempts := 1
  destructive := false
  externalWrite := false
  escalateTo := none

def sampleConfig (planning working : ApprovalMode) (sandbox : SandboxMode) : RouterConfig where
  schemaVersion := 1
  defaultTask := text "work"
  plannerTask := text "plan"
  completionTask := text "review"
  maximumReadConcurrency := 2
  repositoryInspectionTimeoutSeconds := 60
  modelAliases := Dict.ofList [(text "base", ⟨text "base", text "model", text "low", 1⟩)]
  tasks := Dict.ofList [
    (text "plan", sampleTask (text "plan") (text "Plan") .readOnly planning),
    (text "review", sampleTask (text "review") (text "Review") .readOnly .automatic),
    (text "work", sampleTask (text "work") (text "Work") sandbox working)]
  matching := []
  hardRiskRules := []
  digest := text "digest"

def samplePath : PurePath := PurePath.ofText (text "/p")

def sampleApplication (planning working : ApprovalMode) (sandbox : SandboxMode)
    (h : loadRouterConfig sampleHost samplePath (sampleYaml planning working sandbox)
      (text "digest") = .ok (sampleConfig planning working sandbox)) : Application sampleHost :=
  ⟨⟨sampleConfig planning working sandbox, samplePath, _, _, h⟩, samplePath⟩

def sampleTurn (response : Text) : SdkTurn where
  id := text "turn"
  status := text "completed"
  finalResponse := some response
  items := []
  usage := none
  durationSeconds := PyFloat.one

/-- The planner returns a plan, the named items succeed, and every other turn fails. -/
def sampleScript (plan : Json) (succeeds : List String) : Script where
  turn t := match t.subject with
    | .item item =>
      if item.id ∈ succeeds.map text then .ok (sampleTurn (text "done"))
      else .error ⟨.sdkError, text "failed"⟩
    | _ => .ok (sampleTurn (renderJson plan))
  dies _ _ := false
  repository := ⟨samplePath, true, none, [], [], [], [], []⟩
  models := [text "model"]
  schema := []
  time := { year := 2026, month := 1, day := 1, hour := 0, minute := 0, second := 0,
            microsecond := 0, offset := some 0, valid := by decide }
  aware := nofun

def sampleWorld : World := ⟨text "run", .absent, []⟩

theorem sampleWorld_reachable : Reachable host sampleWorld := .initial _

/-- The sample application that needs no approval and writes nothing. -/
def plainApplication : Application sampleHost :=
  sampleApplication .automatic .automatic .readOnly (by decide +kernel)

/-- The run of three items in a chain, of which the turn of the first succeeds. -/
def dependentRun : World :=
  (sampleScript dependentPlan ["a"]).session plainApplication
    (.runObjective samplePath (text "Go") none) sampleWorld

theorem dependentRun_reachable : Reachable sampleHost dependentRun :=
  (sampleScript dependentPlan ["a"]).session_reachable plainApplication _ sampleWorld_reachable

end Sample

end GoalRouter
