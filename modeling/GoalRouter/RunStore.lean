import GoalRouter.Host
import GoalRouter.StoredIdempotence

namespace GoalRouter
open Library
set_option autoImplicit true

def runIdStart (c : CodePoint) : Bool :=
  lowerAlphanumeric c || (65 ≤ c.val && c.val ≤ 90)

def runIdRest (c : CodePoint) : Bool := runIdStart c || c ∈ text "._-"

/-- `re.fullmatch("^[A-Za-z0-9][A-Za-z0-9._-]*$", t)`. -/
def isRunId : Text → Bool
  | [] => false
  | c :: t => runIdStart c && t.all runIdRest

def validateRunId (host : Host) (runId : Text) : Except PyError Text :=
  if isRunId runId then .ok runId
  else .error (stateError (text "Invalid run ID " ++ host.repr runId))

/-- The directory of a run as far as its snapshot goes. -/
inductive RunDir where
  | absent
  | empty
  | snapshot (content : Json)
  deriving DecidableEq

/-- What `json.loads` reads from the `state.json` that a save of the state writes. -/
def snapshotOf (s : RunState) : Json := persistJson s.toDict

/-- `_create_sync` where no file operation fails. -/
def createSync (s : RunState) : RunDir → Except PyError RunDir
  | .absent => .ok (.snapshot (snapshotOf s))
  | _ => .error (stateError (text "Cannot create run " ++ s.runId))

/-- `_save_sync` where no file operation fails. -/
def saveSync (s : RunState) : RunDir → Except PyError RunDir
  | .absent => .error (stateError (text "Cannot save run " ++ s.runId))
  | _ => .ok (.snapshot (snapshotOf s))

/-- `_load_sync`. -/
def loadSync (host : Host) (runId : Text) : RunDir → Except PyError RunState
  | .snapshot (.obj raw) =>
    let version := lookup (text "schema_version") raw
    if !(version.map (Json.equalsInt 1)).getD false then
      .error (stateError (text "Unsupported state schema version " ++ host.reprJson version ++
        text " for run " ++ runId))
    else
      match RunState.fromDict raw with
      | .error e =>
        if e.kind = .stateError then
          .error (stateError (text "Run " ++ runId ++ text " state is corrupt: " ++ e.message))
        else .error e
      | .ok s => .ok s
  | .snapshot _ =>
    .error (stateError (text "Run " ++ runId ++ text " state is corrupt: expected a JSON object"))
  | _ => .error (stateError (text "Run " ++ runId ++ text " state is corrupt or unreadable"))

theorem snapshotOf_eq (s : RunState) : snapshotOf s = .obj (persistFields s.fields) :=
  persistJson_obj _

theorem lookup_schemaVersion (s : RunState) :
    lookup (text "schema_version") (persistFields s.fields) = some (.int s.schemaVersion) := by
  rw [lookup_persistFields s.plainNames]
  rfl

theorem loadSync_snapshotOf (host : Host) (runId : Text) {s : RunState} (hv : s.schemaVersion = 1)
    (ha : s.Aware) (hk : s.PlainKeys) :
    loadSync host runId (.snapshot (snapshotOf s)) = .ok s.persisted := by
  rw [snapshotOf_eq, loadSync, lookup_schemaVersion, hv, s.fromDict_persisted ha hk]
  rfl

theorem loadSync_ok {host : Host} {runId : Text} {dir : RunDir} {s : RunState}
    (h : loadSync host runId dir = .ok s) :
    ∃ raw, dir = .snapshot (.obj raw) ∧ RunState.fromDict raw = .ok s := by
  rw [loadSync.eq_def] at h
  split at h
  · rename_i raw
    simp only at h
    split at h
    · cases h
    · split at h
      · split at h <;> cases h
      · rename_i s' hs
        cases h
        exact ⟨raw, rfl, hs⟩
  · cases h
  · cases h

theorem loadSync_secret (host : Host) (runId : Text) {s : RunState}
    (hj : ∀ k ∈ s.workItems.keys, joinSurrogates k = k) {key : Text} (hm : key ∈ s.workItems.keys)
    (hs : isSecretKey key = true) :
    ∃ e, loadSync host runId (.snapshot (snapshotOf s)) = .error e := by
  cases h : loadSync host runId (.snapshot (snapshotOf s)) with
  | error e => exact ⟨e, rfl⟩
  | ok s' =>
    obtain ⟨raw, hd, hf⟩ := loadSync_ok h
    obtain ⟨e, he⟩ := s.fromDict_secret hj hm hs
    rw [snapshotOf_eq] at hd
    cases hd
    rw [he] at hf
    cases hf

end GoalRouter
