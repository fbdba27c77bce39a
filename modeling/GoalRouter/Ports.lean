import GoalRouter.CodexTurn
import GoalRouter.RouterConfiguration
import GoalRouter.RunStore
import GoalRouter.Library.Program

namespace GoalRouter
open Library
set_option autoImplicit true

/-- Points of a run that the world records and no program reads. -/
inductive Note where
  | approved (s : RunState) (workItemId : Text)
  | adopted (s : RunState)
  | validated (s : RunState) (workItemId : Text)
  | dispatching (s : RunState) (item : WorkItem)
  | passing (s : RunState)
  | concluding (s : RunState)

/-- The calls the code makes through its ports. -/
inductive Call where
  | acquireRun (runId : Text)
  | releaseRun (runId : Text)
  | acquireProject (path : PurePath)
  | releaseProject (path : PurePath)
  | inspect (path : PurePath)
  | availableModels
  | newRunId
  | now
  | loadSchema
  | startTurn (turn : Turn)
  /-- Wait for one of the running turns to end; the wait of a task group can be interrupted. -/
  | awaitTurn (interruptible : Bool) (running : List Turn)
  | create (s : RunState)
  | load (runId : Text)
  | save (s : RunState)
  | appendEvent (runId : Text) (event : RunEvent)
  | writeReport (runId : Text) (content : Text)
  | note (n : Note)

/-- What a call answers when it does not raise. -/
def Val : Call → Type
  | .inspect _ => RepositoryContext
  | .availableModels => List Text
  | .newRunId => Text
  | .now => DateTime
  | .loadSchema => Text
  | .awaitTurn _ _ => Turn × Outcome
  | .load _ => RunState
  | _ => Unit

/-- Calls that never raise. -/
def Call.total : Call → Bool
  | .newRunId | .now | .startTurn _ | .awaitTurn _ _ | .note _ => true
  | _ => false

abbrev Program (α : Type) := Prog Val PyError α

def invoke (c : Call) : Program (Val c) := Prog.invoke c

def note (n : Note) : Program Unit := Prog.invoke (Call.note n)

def raise (e : PyError) : Program α := .throw e

instance : MonadLift (Except PyError) (Prog Val PyError) := ⟨Prog.ofExcept⟩

section Store

variable (host : Host)

def createRun (s : RunState) : Program Unit := do
  let _ ← validateRunId host s.runId
  invoke (.create s)

def loadRun (runId : Text) (expectedDigest : Option Text) (acknowledgeChange : Bool) :
    Program RunState := do
  let _ ← validateRunId host runId
  let s : RunState ← invoke (.load runId)
  match expectedDigest with
  | none => return s
  | some digest =>
    if s.configurationDigest ≠ digest ∧ acknowledgeChange = false then
      raise ⟨.resumeConfigurationChangedError, text "Run " ++ runId ++
        text " uses configuration digest " ++ s.configurationDigest ++
        text "; current digest is " ++ digest⟩
    else return s

def saveRun (s : RunState) : Program Unit := do
  let _ ← validateRunId host s.runId
  invoke (.save s)

def appendEvent (runId : Text) (event : RunEvent) : Program Unit := do
  let _ ← validateRunId host runId
  invoke (.appendEvent runId event)

def writeReportText (runId content : Text) : Program Unit := do
  let _ ← validateRunId host runId
  invoke (.writeReport runId content)

end Store

/-- One thing that happened in the history of a run. -/
inductive Event where
  | began (config : RouterConfig)
  | answered (c : Call) (r : Except PyError (Val c))
  | replaced (s : RunState)

/-- The world of one run: its directory, and all that happened so far, newest first. -/
structure World where
  runId : Text
  dir : RunDir
  log : List Event

namespace World

def push (w : World) (c : Call) (r : Except PyError (Val c)) : World :=
  { w with log := .answered c r :: w.log }

/-- The snapshot of a state takes the place of the one before. -/
def land (w : World) (s : RunState) : World :=
  { w with dir := .snapshot (snapshotOf s), log := .replaced s :: w.log }

/-- A process begins to work on the run under a configuration. -/
def begin (w : World) (config : RouterConfig) : World := { w with log := .began config :: w.log }

@[simp] theorem push_runId (w : World) (c : Call) (r : Except PyError (Val c)) :
    (w.push c r).runId = w.runId := rfl

@[simp] theorem push_dir (w : World) (c : Call) (r : Except PyError (Val c)) :
    (w.push c r).dir = w.dir := rfl

@[simp] theorem push_log (w : World) (c : Call) (r : Except PyError (Val c)) :
    (w.push c r).log = .answered c r :: w.log := rfl

@[simp] theorem land_runId (w : World) (s : RunState) : (w.land s).runId = w.runId := rfl

@[simp] theorem land_dir (w : World) (s : RunState) :
    (w.land s).dir = .snapshot (snapshotOf s) := rfl

@[simp] theorem land_log (w : World) (s : RunState) : (w.land s).log = .replaced s :: w.log := rfl

end World

/-- How the world answers a call. A write whose await is cancelled may have landed; a failed
`create` may leave the directory without a snapshot. -/
inductive Next (host : Host) : World → (c : Call) → Except PyError (Val c) → World → Prop where
  | raises (h : c.total = false) : Next host w c (.error e) (w.push c (.error e))
  | interrupted : Next host w (.awaitTurn true running) (.error .cancelled)
      (w.push (.awaitTurn true running) (.error .cancelled))
  | acquireRun : Next host w (.acquireRun rid) (.ok ()) (w.push (.acquireRun rid) (.ok ()))
  | releaseRun : Next host w (.releaseRun rid) (.ok ()) (w.push (.releaseRun rid) (.ok ()))
  | acquireProject : Next host w (.acquireProject p) (.ok ()) (w.push (.acquireProject p) (.ok ()))
  | releaseProject : Next host w (.releaseProject p) (.ok ()) (w.push (.releaseProject p) (.ok ()))
  | inspect (repository : RepositoryContext) :
      Next host w (.inspect p) (.ok repository) (w.push (.inspect p) (.ok repository))
  | availableModels (models : List Text) :
      Next host w .availableModels (.ok models) (w.push .availableModels (.ok models))
  | newRunId : Next host w .newRunId (.ok w.runId) (w.push .newRunId (.ok w.runId))
  | now (time : DateTime) (h : time.offset ≠ none) :
      Next host w .now (.ok time) (w.push .now (.ok time))
  | loadSchema (schema : Text) :
      Next host w .loadSchema (.ok schema) (w.push .loadSchema (.ok schema))
  | startTurn : Next host w (.startTurn t) (.ok ()) (w.push (.startTurn t) (.ok ()))
  | awaitTurn (hm : t ∈ running) (he : t.Ends outcome) :
      Next host w (.awaitTurn b running) (.ok (t, outcome))
        (w.push (.awaitTurn b running) (.ok (t, outcome)))
  | created (hr : s.runId = w.runId) (hd : createSync s w.dir = .ok dir)
      (ha : r = .ok () ∨ r = .error .cancelled) :
      Next host w (.create s) r ((w.land s).push (.create s) r)
  | createdPartly (hr : s.runId = w.runId) (hd : w.dir = .absent) :
      Next host w (.create s) (.error e) ({ w with dir := .empty }.push (.create s) (.error e))
  | loaded (hr : rid = w.runId) (h : loadSync host rid w.dir = .ok s) :
      Next host w (.load rid) (.ok s) (w.push (.load rid) (.ok s))
  | saved (hr : s.runId = w.runId) (hd : saveSync s w.dir = .ok dir)
      (ha : r = .ok () ∨ r = .error .cancelled) :
      Next host w (.save s) r ((w.land s).push (.save s) r)
  | appendEvent : Next host w (.appendEvent rid e) (.ok ()) (w.push (.appendEvent rid e) (.ok ()))
  | writeReport : Next host w (.writeReport rid t) (.ok ()) (w.push (.writeReport rid t) (.ok ()))
  | note : Next host w (.note n) (.ok ()) (w.push (.note n) (.ok ()))

theorem createSync_ok {s : RunState} {dir dir' : RunDir} (h : createSync s dir = .ok dir') :
    dir = .absent ∧ dir' = .snapshot (snapshotOf s) := by
  cases dir <;> cases h
  exact ⟨rfl, rfl⟩

theorem saveSync_ok {s : RunState} {dir dir' : RunDir} (h : saveSync s dir = .ok dir') :
    dir ≠ .absent ∧ dir' = .snapshot (snapshotOf s) := by
  cases dir <;> cases h <;> exact ⟨nofun, rfl⟩

/-- What is answered to a call stands last in the log; a write may stand before it. -/
theorem Next.since {host : Host} (h : Next host w c r w') :
    ∃ e, w'.log = .answered c r :: (e ++ w.log) ∧
    ∀ e' ∈ e, ∃ s, e' = .replaced s := by
  cases h with
  | created | saved => exact ⟨[.replaced _], rfl, by simp⟩
  | _ => exact ⟨[], rfl, by simp⟩

theorem steps_log {host : Host} {p q : Program α} {w w' : World}
    (h : Prog.Steps (Next host) p w q w') : ∃ events, w'.log = events ++ w.log := by
  apply h.keeps (F := fun w' => ∃ events, w'.log = events ++ w.log)
  · rintro w₁ c r w₂ hn ⟨events, hl⟩
    obtain ⟨e, he, _⟩ := hn.since
    exact ⟨.answered c r :: (e ++ events), by rw [he, hl, List.cons_append, List.append_assoc]⟩
  · exact ⟨[], rfl⟩

end GoalRouter
