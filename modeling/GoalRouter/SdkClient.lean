import GoalRouter.CodexTurn
import GoalRouter.LauncherMounts
import GoalRouter.Locking
import GoalRouter.PlanValidation
import GoalRouter.Library.Program

namespace GoalRouter
open Library
set_option autoImplicit true

/-- The text of a member, as messages show it. -/
def AuthMode.value : AuthMode → Text
  | .existingSession => text "existing-session"
  | .apiKey => text "api-key"

inductive SdkApprovalMode where
  | denyAll
  deriving DecidableEq

inductive SdkSandbox where
  | readOnly | workspaceWrite
  deriving DecidableEq

/-- `_sandbox`. -/
def sdkSandbox : SandboxMode → SdkSandbox
  | .readOnly => .readOnly
  | .workspaceWrite => .workspaceWrite

/-- How a thread is opened. -/
structure ThreadOptions where
  approvalMode : SdkApprovalMode
  cwd : Text
  model : Text
  sandbox : SdkSandbox
  deriving DecidableEq

/-- A client of the SDK. Either both paths for the staging of a session are set, or neither is. -/
structure CodexSdkClient where
  authMode : AuthMode
  apiKey : Option Text
  environ : Text → Option Text
  codexHome : Option (PurePath × PurePath)
  codexBin : Option Text

namespace CodexSdkClient

/-- `Path(value) if value else None`. -/
def environmentPath (value : Option Text) : Option PurePath :=
  match value with
  | none | some [] => none
  | some t => some (PurePath.ofText t)

def create (authMode : AuthMode) (apiKey : Option Text) (environ : Text → Option Text)
    (codexBin : Option Text) (codexHomeSource codexHomeStaging : Option PurePath) :
    Except PyError CodexSdkClient :=
  let source := codexHomeSource.or (environmentPath (environ (text "GOALROUTER_CODEX_HOME")))
  let staging := codexHomeStaging.or
    (environmentPath (environ (text "GOALROUTER_CODEX_STAGING_PATH")))
  match source, staging with
  | none, none => .ok ⟨authMode, apiKey, environ, none, codexBin⟩
  | some source, some staging => .ok ⟨authMode, apiKey, environ, some (source, staging), codexBin⟩
  | _, _ => .error ⟨.sdkError, text "Codex home staging requires both source and staging paths"⟩

/-- The calls of the SDK, of the event loop and of threads. -/
inductive Call where
  | isStaged
  | setStaged
  | acquireStaging
  | releaseStaging
  | stage (source staging : PurePath)
  /-- `factory(config)`: a binary, and the Codex home that is set in its environment. -/
  | connect (codexBin : Option Text) (codexHome : Option Text)
  | enter
  | account
  | loginApiKey (apiKey : Text)
  | models
  | threadStart (options : ThreadOptions) (developerInstructions : Text)
  | threadResume (threadId : Text) (options : ThreadOptions)
  | reasoningEffort (effort : Text)
  | run (thread prompt effort : Text) (structured : Bool)
  | transportProcess
  | exit
  | closeOutputStreams (process : Nat)
  /-- Whether a cancellation comes from the timeout that it passes. -/
  | expired
  deriving DecidableEq

def Val : Call → Type
  | .isStaged | .account | .expired => Bool
  | .models => List Text
  | .threadStart .. | .threadResume .. => Text
  | .run .. => SdkTurn
  | .transportProcess => Option Nat
  | _ => Unit

abbrev Session (α : Type) := Prog Val Raised α

def invoke (c : Call) : Session (Val c) := Prog.invoke c

def fail (kind : ErrorKind) (message : Text) : Session α := .throw ⟨⟨kind, message⟩, false, []⟩

/-- `try: ... except ...:`, where the handler raises again what it does not catch. -/
def catching (p : Session α) (handler : Raised → Session α) : Session α :=
  p.attempt >>= fun
    | .ok a => .pure a
    | .error e => handler e

def isTimeout (e : Raised) : Bool := e.error.kind = .other (text "TimeoutError")

/-- What the SDK and the host raise is taken to be an `Exception` or a `CancelledError`, and only
the latter is no `Exception`. -/
def isException (e : Raised) : Bool := e.error.kind ≠ .cancelledError

/-- `async with asyncio.timeout(...)`. -/
def withTimeout (p : Session α) : Session α :=
  catching p fun e =>
    if isException e then .throw e
    else do
      let expired : Bool ← invoke .expired
      if expired then .throw ⟨⟨.other (text "TimeoutError"), []⟩, true, []⟩ else .throw e

/-- The errors that leave the client, in place of those of the SDK. -/
def translating (timedOut failed : PyError) (p : Session α) : Session α :=
  catching p fun e =>
    if isTimeout e then .throw ⟨timedOut, false, []⟩
    else if e.error.kind = .authenticationError ∨ e.error.kind = .sdkError then .throw e
    else if isException e then .throw ⟨failed, false, []⟩
    else .throw e

def closeStreams (process : Option Nat) : Session Unit :=
  match process with
  | some process => invoke (.closeOutputStreams process)
  | none => pure ()

/-- The outcome of a session whose body ended with `result`: what is raised last is what goes on. -/
def outcomeOf (result : Except Raised α) (exited : Except Raised Unit) : Session α :=
  match exited with
  | .ok _ => Prog.ofExcept result
  | .error e => .throw e

/-- The way out of a session whose body ended with `result`. -/
def leave (result : Except Raised α) : Session α := do
  let process : Option Nat ← invoke .transportProcess
  let exited ← (invoke .exit).attempt
  closeStreams process
  outcomeOf result exited

/-- `async with _managed_codex(...)`. -/
def managedCodex (codexBin codexHome : Option Text) (body : Session α) : Session α := do
  invoke (.connect codexBin codexHome)
  invoke .enter
  let result ← body.attempt
  leave result

variable (client : CodexSdkClient)

def stageCodexHomeOnce : Session Unit := do
  let staged : Bool ← invoke .isStaged
  if staged then pure ()
  else
    match client.codexHome with
    | none => fail .sdkError (text "Codex home staging paths are incomplete")
    | some (source, staging) => do
      catching (invoke (.stage source staging)) fun e =>
        if e.isOSError then
          fail .authenticationError (text "Cannot stage the selected Codex authentication session")
        else .throw e
      invoke .setStaged

def prepareCodexHome : Session Unit := do
  let staged : Bool ← invoke .isStaged
  if staged then pure ()
  else do
    invoke .acquireStaging
    client.stageCodexHomeOnce.ensure (invoke .releaseStaging)

def requireAccount : Session Unit :=
  match client.authMode with
  | .existingSession => do
    let account : Bool ← invoke .account
    if account then pure ()
    else
      fail .authenticationError
        (text "No authenticated Codex session is available; log in with Codex first")
  | .apiKey =>
    match orElseText (client.apiKey.getD []) ((client.environ (text "OPENAI_API_KEY")).getD []) with
    | [] => fail .authenticationError
        (text "API-key authentication requires OPENAI_API_KEY or an explicit API key")
    | apiKey => invoke (.loginApiKey apiKey)

def authenticate : Session Unit :=
  catching client.requireAccount fun e =>
    if e.error.kind = .authenticationError then .throw e
    else if isException e then
      fail .authenticationError
        (text "The selected " ++ client.authMode.value ++ text " authentication mode failed")
    else .throw e

/-- What every use of the SDK begins and ends with. -/
def session (body : Session α) : Session α := do
  client.prepareCodexHome
  managedCodex client.codexBin (client.codexHome.map fun home => home.2.text) do
    client.authenticate
    body

def availableModels : Session (List Text) :=
  translating ⟨.sdkError, text "Timed out while listing available Codex models"⟩
    ⟨.sdkError, text "Codex SDK could not list available models"⟩
    (withTimeout (client.session (invoke .models)))

def threadOptions (projectPath : PurePath) (route : RouteDecision) : ThreadOptions where
  approvalMode := .denyAll
  cwd := projectPath.text
  model := route.model
  sandbox := sdkSandbox route.sandbox

/-- One turn in a thread that is opened for it. -/
def runTurn (openThread : Session Text) (route : RouteDecision) (prompt : Text)
    (structured : Bool) : Session WorkResult := do
  let thread ← openThread
  invoke (.reasoningEffort route.reasoningEffort)
  let turn : SdkTurn ← invoke (.run thread prompt route.reasoningEffort structured)
  Prog.ofExcept ((normalizeResult route thread turn).mapError fun e => ⟨e, false, []⟩)

def turnTimedOut (route : RouteDecision) : PyError :=
  ⟨.turnTimeoutError,
    text "Codex turn exceeded the " ++ decimal route.timeoutSeconds ++ text "-second timeout"⟩

def runNewThread (projectPath : PurePath) (route : RouteDecision)
    (prompt developerInstructions : Text) (structured : Bool) : Session WorkResult :=
  translating (turnTimedOut route) ⟨.sdkError, text "Codex SDK could not complete a new thread"⟩
    (withTimeout (client.session (runTurn
      (invoke (.threadStart (threadOptions projectPath route) developerInstructions))
      route prompt structured)))

def resumeThread (threadId : Text) (projectPath : PurePath) (route : RouteDecision)
    (prompt : Text) (structured : Bool) : Session WorkResult :=
  translating (turnTimedOut route) ⟨.sdkError, text "Codex SDK could not resume the stored thread"⟩
    (withTimeout (client.session (runTurn
      (invoke (.threadResume threadId (threadOptions projectPath route)))
      route prompt structured)))

/-- What the services ask of a client. -/
inductive Request where
  | models
  | turn (t : Turn)

inductive Response where
  | models (available : List Text)
  | turn (result : WorkResult)

def serve : Request → Session Response
  | .models => do
    let available ← client.availableModels
    return .models available
  | .turn t => do
    let result ← match t.threadId with
      | some threadId =>
        client.resumeThread threadId t.projectPath t.route t.prompt t.structured
      | none =>
        client.runNewThread t.projectPath t.route t.prompt (t.developerInstructions.getD [])
          t.structured
    return .turn result

end CodexSdkClient

end GoalRouter
