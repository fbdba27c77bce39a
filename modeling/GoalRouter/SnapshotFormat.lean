import GoalRouter.ScriptedWorld

namespace GoalRouter
open Library
set_option autoImplicit true

open StateField

/-- How a part of a snapshot departs from the format: the wrong shape, a number no float holds, or a
value nested deeper than the recursion limit allows. -/
inductive Fault where
  | malformed | oversized | tooDeep
  deriving DecidableEq

/-- The shapes of the parts of a snapshot; the fields of an object stand in reading order. -/
inductive Shape where
  | string | optionalString | boolean | integer | number | datetime
  | enum (members : List Text)
  | jsonValue (fits : Json → Bool)
  | array (item : Shape)
  | object (fields : List (Text × Shape))
  | table (entry : Shape)

/-- The fault of a field that has to be there. -/
def faultAt (fault : Json → Option Fault) (name : Text) (value : Fields) : Option Fault :=
  match lookup name value with
  | none => some .malformed
  | some j => fault j

namespace Shape

mutual
/-- The first place where a value departs from its shape. -/
def fault : Shape → Json → Option Fault
  | .string, .str _ => none
  | .optionalString, .null | .optionalString, .str _ => none
  | .boolean, .bool _ => none
  | .integer, .int _ => none
  | .number, .float _ => none
  | .number, .int n => if (PyFloat.ofInt n).isSome then none else some .oversized
  | .datetime, .str t => match DateTime.fromIsoformat t with
    | some d => if d.offset.isSome then none else some .malformed
    | none => some .malformed
  | .enum members, .str t => if t ∈ members then none else some .malformed
  | .jsonValue fits, j => if fits j then none else some .tooDeep
  | .array item, .arr xs => xs.findSome? item.fault
  | .object fields, .obj value => faultOfFields fields value
  | .table entry, .obj value => value.findSome? fun e => entry.fault e.2
  | _, _ => some .malformed

def faultOfFields : List (Text × Shape) → Fields → Option Fault
  | [], _ => none
  | (name, shape) :: rest, value => (faultAt shape.fault name value).or (faultOfFields rest value)
end

/-- The shape of an enumeration's texts. -/
def enumOf (α : Type) [StrEnum α] : Shape := .enum ((StrEnum.members : List α).map StrEnum.value)

def instructionFile : Shape := .object [(text "path", .string), (text "content", .string)]

def languageCount : Shape := .object [(text "language", .string), (text "count", .integer)]

def objective : Shape := .object [
  (text "id", .string), (text "prompt", .string), (text "project_path", .string),
  (text "explicit_task", .optionalString), (text "config_path", .string),
  (text "created_at", .datetime)]

def repository : Shape := .object [
  (text "instruction_files", .array instructionFile),
  (text "language_counts", .array languageCount),
  (text "project_path", .string), (text "is_git_worktree", .boolean),
  (text "branch", .optionalString), (text "dirty_paths", .array .string),
  (text "docker_files", .array .string), (text "command_errors", .array .string)]

def workItem : Shape := .object [
  (text "id", .string), (text "title", .string), (text "instructions", .string),
  (text "task", .string), (text "phase", .string), (text "dependencies", .array .string),
  (text "access", enumOf AccessMode), (text "affected_paths", .array .string),
  (text "expected_result", .string), (text "verification", .array .string),
  (text "confidence", .number), (text "risk_flags", .array .string)]

def routeDecision : Shape := .object [
  (text "task", .string), (text "model_alias", .string), (text "model", .string),
  (text "reasoning_effort", .string), (text "sandbox", enumOf SandboxMode),
  (text "approval", enumOf ApprovalMode), (text "timeout_seconds", .integer),
  (text "max_attempts", .integer), (text "destructive", .boolean),
  (text "external_write", .boolean), (text "escalation_task", .optionalString),
  (text "source", enumOf RouteSource), (text "reason", .string)]

def workResult (fits : Json → Bool) : Shape := .object [
  (text "work_item_id", .string), (text "thread_id", .optionalString),
  (text "turn_id", .optionalString), (text "status", enumOf WorkStatus),
  (text "final_response", .optionalString), (text "sdk_items", .array (.jsonValue fits)),
  (text "input_tokens", .integer), (text "cached_input_tokens", .integer),
  (text "output_tokens", .integer), (text "duration_seconds", .number),
  (text "changed_paths", .array .string), (text "verification", .array .string),
  (text "confidence", .number), (text "escalation_requested", .boolean),
  (text "error", .optionalString)]

def approvalRecord : Shape := .object [
  (text "run_id", .string), (text "work_item_id", .string), (text "approved_by", .string),
  (text "approved_at", .datetime), (text "configuration_digest", .string),
  (text "fingerprint", .string)]

/-- The format of `state.json`, where the values that `_json_value` can copy are known. -/
def runState (fits : Json → Bool) : Shape := .object [
  (text "work_items", .table workItem), (text "routes", .table routeDecision),
  (text "results", .table (workResult fits)), (text "approvals", .table approvalRecord),
  (text "schema_version", .integer), (text "configuration_digest", .string),
  (text "objective", objective), (text "repository", repository),
  (text "status", enumOf RunStatus)]

end Shape

/-- The outcome of a decoder on a value with the given first fault. -/
def Follows (r : Except PyError α) : Option Fault → Prop
  | none => ∃ a, r = .ok a
  | some .malformed => ∃ message, r = .error (stateError message)
  | some .oversized => ∃ message, r = .error ⟨.overflowError, message⟩
  | some .tooDeep => r = .error recursionError

namespace Follows

variable {α β : Type}

theorem ok (a : α) : Follows (.ok a) none := ⟨a, rfl⟩

theorem error (message : Text) : Follows (α := α) (.error (stateError message)) (some .malformed) :=
  ⟨message, rfl⟩

theorem bind {x : Except PyError α} {g : α → Except PyError β} {f f' : Option Fault}
    (hx : Follows x f) (hg : ∀ a, x = .ok a → Follows (g a) f') : Follows (x >>= g) (f.or f') := by
  cases f with
  | none =>
    obtain ⟨a, rfl⟩ := hx
    exact hg a rfl
  | some fault =>
    cases fault with
    | malformed =>
      obtain ⟨message, rfl⟩ := hx
      exact ⟨message, rfl⟩
    | oversized =>
      obtain ⟨message, rfl⟩ := hx
      exact ⟨message, rfl⟩
    | tooDeep =>
      cases hx
      rfl

theorem map {x : Except PyError α} {f : Option Fault} (hx : Follows x f) (g : α → β) :
    Follows (x.map g) f := by
  cases f with
  | none =>
    obtain ⟨a, rfl⟩ := hx
    exact ⟨g a, rfl⟩
  | some fault =>
    cases fault with
    | malformed =>
      obtain ⟨message, rfl⟩ := hx
      exact ⟨message, rfl⟩
    | oversized =>
      obtain ⟨message, rfl⟩ := hx
      exact ⟨message, rfl⟩
    | tooDeep =>
      cases hx
      rfl

theorem mapM {γ : Type} {f : γ → Except PyError β} {g : γ → Option Fault}
    (h : ∀ x, Follows (f x) (g x)) (xs : List γ) : Follows (xs.mapM f) (xs.findSome? g) := by
  induction xs with
  | nil => exact ⟨[], rfl⟩
  | cons x xs ih =>
    rw [List.mapM_cons, List.findSome?_cons]
    have hb := (h x).bind (g := fun b => xs.mapM f >>= fun bs => pure (b :: bs))
      fun b _ => (ih.bind fun bs _ => ok (b :: bs) : Follows _ ((xs.findSome? g).or none))
    rw [Option.or_none] at hb
    cases hg : g x with
    | none =>
      rw [hg] at hb
      exact hb
    | some fault =>
      rw [hg] at hb
      exact hb

end Follows

section Fields

variable {α : Type} (value : Fields) (name : Text)

theorem required_follows {read : Text → Json → Except PyError α} {fault : Json → Option Fault}
    (h : ∀ j, Follows (read name j) (fault j)) :
    Follows (stateDecoder.required read value name) (faultAt fault name value) := by
  rw [Decoder.required, Decoder.field, faultAt]
  cases lookup name value with
  | none => exact .error _
  | some j => exact h j

theorem plainString_follows (context : Text) (j : Json) :
    Follows (plainString context j) (Shape.string.fault j) := by
  cases j with
  | str t => exact .ok t
  | _ => exact .error _

theorem string_follows : Follows (string value name) (faultAt Shape.string.fault name value) :=
  required_follows value name (plainString_follows name)

theorem boolean_follows : Follows (boolean value name) (faultAt Shape.boolean.fault name value) :=
  required_follows value name fun j => by
    cases j with
    | bool b => exact .ok b
    | _ => exact .error _

theorem integer_follows : Follows (integer value name) (faultAt Shape.integer.fault name value) :=
  required_follows value name fun j => by
    cases j with
    | int n => exact .ok n
    | _ => exact .error _

theorem number_follows : Follows (number value name) (faultAt Shape.number.fault name value) :=
  required_follows value name fun j => by
    cases j with
    | float x => exact .ok x
    | int n =>
      rw [Shape.fault, Decoder.plainNumber]
      cases PyFloat.ofInt n with
      | none => exact ⟨_, rfl⟩
      | some x => exact .ok x
    | _ => exact .error _

theorem optionalString_follows :
    Follows (optionalString value name) (faultAt Shape.optionalString.fault name value) := by
  rw [optionalString, field, Decoder.field, faultAt]
  cases lookup name value with
  | none => exact .error _
  | some j =>
    cases j with
    | null => exact .ok none
    | str t => exact .ok (some t)
    | _ => exact .error _

theorem datetime_follows :
    Follows (datetime value name) (faultAt Shape.datetime.fault name value) := by
  rw [datetime, string, Decoder.required, Decoder.field, faultAt]
  cases lookup name value with
  | none => exact .error _
  | some j =>
    cases j with
    | str t =>
      simp only [ok_bind, Decoder.plainString, Shape.fault]
      cases DateTime.fromIsoformat t with
      | none => exact .error _
      | some d =>
        dsimp only
        by_cases ho : d.offset = none
        · rw [if_pos ho, if_neg (by rw [ho]; exact Bool.false_ne_true)]
          exact .error _
        · rw [if_neg ho, if_pos (Option.isSome_iff_ne_none.2 ho)]
          exact .ok d
    | _ => exact .error _

theorem enum_follows [StrEnum α] :
    Follows (enum α value name) (faultAt (Shape.enumOf α).fault name value) := by
  rw [enum, string, Decoder.required, Decoder.field, faultAt]
  cases lookup name value with
  | none => exact .error _
  | some j =>
    cases j with
    | str t =>
      simp only [ok_bind, Decoder.plainString, Shape.enumOf, Shape.fault]
      cases he : StrEnum.ofValue? α t with
      | none =>
        have hn : t ∉ (StrEnum.members : List α).map StrEnum.value := by
          intro hm
          obtain ⟨a, ha, ht⟩ := List.mem_map.1 hm
          exact absurd (by simpa using List.find?_eq_none.1 he a ha) (not_not.2 ht)
        rw [if_neg hn]
        exact .error _
      | some a =>
        have hm : t ∈ (StrEnum.members : List α).map StrEnum.value := by
          apply List.mem_map.2
          exact ⟨a, List.mem_of_find?_eq_some he, by simpa using List.find?_some he⟩
        rw [if_pos hm]
        exact .ok a
    | _ => exact .error _

theorem elements_follows {read : Text → Json → Except PyError α} {context : Text} {item : Shape}
    (h : ∀ j, Follows (read context j) (item.fault j)) :
    Follows (elements read context value name) (faultAt (Shape.array item).fault name value) := by
  rw [elements, StateField.sequence, Decoder.required, Decoder.field, faultAt]
  cases lookup name value with
  | none => exact .error _
  | some j =>
    cases j with
    | arr xs => exact .mapM h xs
    | _ => exact .error _

theorem strings_follows (context : Text) :
    Follows (strings value name context) (faultAt (Shape.array .string).fault name value) :=
  elements_follows value name (plainString_follows context)

theorem paths_follows (context : Text) :
    Follows (paths value name context) (faultAt (Shape.array .string).fault name value) :=
  (strings_follows value name context).map _

theorem jsonValues_follows (keyCalls room : Nat) (context : Text) :
    Follows (elements (fun _ => jsonValueWithin keyCalls room) context value name)
      (faultAt (Shape.array (.jsonValue fun j => (jsonCopy keyCalls).depth j ≤ room)).fault name
        value) := by
  apply elements_follows value name
  intro j
  simp only [Shape.fault, decide_eq_true_eq, jsonValueWithin_eq]
  split
  · exact .ok j
  · exact rfl

/-- A record under a name, or one of a table, read by its own decoder. -/
theorem object_follows {fields : List (Text × Shape)} {fromDict : Fields → Except PyError α}
    (h : ∀ value, Follows (fromDict value) (Shape.faultOfFields fields value)) (context : Text)
    (j : Json) : Follows (mapping context j >>= fromDict) ((Shape.object fields).fault j) := by
  cases j with
  | obj entries => exact h entries
  | _ => exact .error _

theorem recordsOf_follows {fields : List (Text × Shape)} {fromDict : Fields → Except PyError α}
    (h : ∀ value, Follows (fromDict value) (Shape.faultOfFields fields value)) :
    Follows (recordsOf fromDict value name)
      (faultAt (Shape.table (.object fields)).fault name value) := by
  have hrecord (e : Text × Json) :
      Follows (recordOf fromDict name e) ((Shape.object fields).fault e.2) := by
    have hb := (object_follows h (name ++ text "." ++ e.1) e.2).map fun record => (e.1, record)
    rw [recordOf]
    cases hm : mapping (name ++ text "." ++ e.1) e.2 with
    | error error =>
      rw [hm] at hb
      exact hb
    | ok item =>
      rw [hm] at hb
      exact hb
  rw [recordsOf, fieldMapping, Decoder.required, Decoder.field, faultAt]
  cases lookup name value with
  | none => exact .error _
  | some j =>
    cases j with
    | obj entries => exact (Follows.mapM hrecord entries).map _
    | _ => exact .error _

theorem nested_follows {fields : List (Text × Shape)} {fromDict : Fields → Except PyError α}
    (h : ∀ value, Follows (fromDict value) (Shape.faultOfFields fields value)) :
    Follows (fieldMapping value name >>= fromDict)
      (faultAt (Shape.object fields).fault name value) := by
  rw [fieldMapping, Decoder.required, Decoder.field, faultAt]
  cases lookup name value with
  | none => exact .error _
  | some j => exact object_follows h name j

end Fields

section Records

variable (value : Fields)

theorem InstructionFile.fromDict_follows :
    Follows (fromDict value) (Shape.instructionFile.fault (.obj value)) := by
  apply (string_follows value _).bind
  intro path _
  apply (string_follows value _).bind
  intro content _
  exact .ok _

theorem languageCountOf_follows (context : Text) (j : Json) :
    Follows (languageCountOf context j) (Shape.languageCount.fault j) := by
  cases j with
  | obj value =>
    apply (string_follows value _).bind
    intro language _
    apply (integer_follows value _).bind
    intro count _
    exact .ok _
  | _ => exact .error _

theorem Objective.fromDict_follows :
    Follows (fromDict value) (Shape.objective.fault (.obj value)) := by
  apply (string_follows value _).bind
  intro id _
  apply (string_follows value _).bind
  intro prompt _
  apply (string_follows value _).bind
  intro projectPath _
  apply (optionalString_follows value _).bind
  intro explicitTask _
  apply (string_follows value _).bind
  intro configPath _
  apply (datetime_follows value _).bind
  intro createdAt _
  exact .ok _

theorem RepositoryContext.fromDict_follows :
    Follows (fromDict value) (Shape.repository.fault (.obj value)) := by
  apply (elements_follows value _ fun j =>
    object_follows InstructionFile.fromDict_follows _ j).bind
  intro instructionFiles _
  apply (elements_follows value _ fun j => languageCountOf_follows _ j).bind
  intro languageCounts _
  apply (string_follows value _).bind
  intro projectPath _
  apply (boolean_follows value _).bind
  intro isGitWorktree _
  apply (optionalString_follows value _).bind
  intro branch _
  apply (paths_follows value _ _).bind
  intro dirtyPaths _
  apply (paths_follows value _ _).bind
  intro dockerFiles _
  apply (strings_follows value _ _).bind
  intro commandErrors _
  exact .ok _

theorem WorkItem.fromDict_follows :
    Follows (fromDict value) (Shape.workItem.fault (.obj value)) := by
  apply (string_follows value _).bind
  intro id _
  apply (string_follows value _).bind
  intro title _
  apply (string_follows value _).bind
  intro instructions _
  apply (string_follows value _).bind
  intro task _
  apply (string_follows value _).bind
  intro phase _
  apply (strings_follows value _ _).bind
  intro dependencies _
  apply (enum_follows value _).bind
  intro access _
  apply (paths_follows value _ _).bind
  intro affectedPaths _
  apply (string_follows value _).bind
  intro expectedResult _
  apply (strings_follows value _ _).bind
  intro verification _
  apply (number_follows value _).bind
  intro confidence _
  apply (strings_follows value _ _).bind
  intro riskFlags _
  exact .ok _

theorem RouteDecision.fromDict_follows :
    Follows (fromDict value) (Shape.routeDecision.fault (.obj value)) := by
  apply (string_follows value _).bind
  intro task _
  apply (string_follows value _).bind
  intro modelAlias _
  apply (string_follows value _).bind
  intro model _
  apply (string_follows value _).bind
  intro reasoningEffort _
  apply (enum_follows value _).bind
  intro sandbox _
  apply (enum_follows value _).bind
  intro approval _
  apply (integer_follows value _).bind
  intro timeoutSeconds _
  apply (integer_follows value _).bind
  intro maxAttempts _
  apply (boolean_follows value _).bind
  intro destructive _
  apply (boolean_follows value _).bind
  intro externalWrite _
  apply (optionalString_follows value _).bind
  intro escalationTask _
  apply (enum_follows value _).bind
  intro source _
  apply (string_follows value _).bind
  intro reason _
  exact .ok _

/-- The values that `_json_value` can copy where so many calls are left. -/
def Copied (keyCalls room : Nat) (j : Json) : Bool := (jsonCopy keyCalls).depth j ≤ room

theorem WorkResult.fromDictWith_follows (keyCalls room : Nat) :
    Follows (fromDictWith (jsonValueWithin keyCalls room) value)
      ((Shape.workResult (Copied keyCalls room)).fault (.obj value)) := by
  apply (string_follows value _).bind
  intro workItemId _
  apply (optionalString_follows value _).bind
  intro threadId _
  apply (optionalString_follows value _).bind
  intro turnId _
  apply (enum_follows value _).bind
  intro status _
  apply (optionalString_follows value _).bind
  intro finalResponse _
  apply (jsonValues_follows value _ keyCalls room _).bind
  intro sdkItems _
  apply (integer_follows value _).bind
  intro inputTokens _
  apply (integer_follows value _).bind
  intro cachedInputTokens _
  apply (integer_follows value _).bind
  intro outputTokens _
  apply (number_follows value _).bind
  intro durationSeconds _
  apply (paths_follows value _ _).bind
  intro changedPaths _
  apply (strings_follows value _ _).bind
  intro verification _
  apply (number_follows value _).bind
  intro confidence _
  apply (boolean_follows value _).bind
  intro escalationRequested _
  apply (optionalString_follows value _).bind
  intro error _
  exact .ok _

theorem ApprovalRecord.fromDict_follows :
    Follows (fromDict value) (Shape.approvalRecord.fault (.obj value)) := by
  apply (string_follows value _).bind
  intro runId _
  apply (string_follows value _).bind
  intro workItemId _
  apply (string_follows value _).bind
  intro approvedBy _
  apply (datetime_follows value _).bind
  intro approvedAt _
  apply (string_follows value _).bind
  intro configurationDigest _
  apply (string_follows value _).bind
  intro fingerprint _
  exact .ok _

theorem Follows.caught {α : Type} {r : Except PyError α} {f : Option Fault} (h : Follows r f) :
    Follows (catchInvalid r) f := by
  cases f with
  | none =>
    obtain ⟨a, rfl⟩ := h
    exact .ok a
  | some fault =>
    cases fault with
    | malformed =>
      obtain ⟨message, rfl⟩ := h
      exact .error message
    | oversized =>
      obtain ⟨message, rfl⟩ := h
      exact ⟨message, rfl⟩
    | tooDeep =>
      cases h
      rfl

/-- Decoding a snapshot comes to what its first departure from the format makes of it. -/
theorem RunState.fromDictWith_follows (keyCalls room : Nat) :
    Follows (fromDictWith (jsonValueWithin keyCalls room) value)
      ((Shape.runState (Copied keyCalls room)).fault (.obj value)) := by
  apply Follows.caught
  apply (recordsOf_follows value _ WorkItem.fromDict_follows).bind
  intro workItems _
  apply (recordsOf_follows value _ RouteDecision.fromDict_follows).bind
  intro routes _
  apply (recordsOf_follows value _ fun v => WorkResult.fromDictWith_follows v keyCalls room).bind
  intro results _
  apply (recordsOf_follows value _ ApprovalRecord.fromDict_follows).bind
  intro approvals _
  apply (integer_follows value _).bind
  intro schemaVersion _
  apply (string_follows value _).bind
  intro configurationDigest _
  apply (nested_follows value _ Objective.fromDict_follows).bind
  intro objective _
  apply (nested_follows value _ RepositoryContext.fromDict_follows).bind
  intro repository _
  apply (enum_follows value _).bind
  intro status _
  exact .ok _

end Records

/-- What is left of the recursion limit while a snapshot is decoded: the calls of `_json_value` and
those that its test of a mapping opens, and the values that `repr` can write. -/
structure DecodingRoom where
  calls : Nat
  keyCalls : Nat
  writable : Json → Bool

def DecodingRoom.copied (room : DecodingRoom) : Json → Bool := Copied room.keyCalls room.calls

/-- `_load_sync`, from the value that is read. -/
def decodeSnapshot (room : DecodingRoom) (host : Host) (runId : Text) :
    Json → Except PyError RunState
  | .obj raw =>
    let version := lookup (text "schema_version") raw
    if !(version.map (Json.equalsInt 1)).getD false then
      if (version.map room.writable).getD true then
        .error (stateError (text "Unsupported state schema version " ++ host.reprJson version ++
          text " for run " ++ runId))
      else .error recursionError
    else
      match RunState.fromDictWith (jsonValueWithin room.keyCalls room.calls) raw with
      | .error e =>
        if e.kind = .stateError then
          .error (stateError (text "Run " ++ runId ++ text " state is corrupt: " ++ e.message))
        else .error e
      | .ok s => .ok s
  | _ =>
    .error (stateError (text "Run " ++ runId ++ text " state is corrupt: expected a JSON object"))

/-- The first fault of what a snapshot holds; of another schema version all is malformed, unless the
version is nested too deep to be written in the message. -/
def snapshotFault (room : DecodingRoom) : Json → Option Fault
  | .obj raw =>
    let version := lookup (text "schema_version") raw
    if (version.map (Json.equalsInt 1)).getD false then
      (Shape.runState room.copied).fault (.obj raw)
    else if (version.map room.writable).getD true then some .malformed
    else some .tooDeep
  | _ => some .malformed

theorem decodeSnapshot_follows (room : DecodingRoom) (host : Host) (runId : Text) (content : Json) :
    Follows (decodeSnapshot room host runId content) (snapshotFault room content) := by
  cases content with
  | obj raw =>
    simp only [decodeSnapshot, snapshotFault]
    cases ((lookup (text "schema_version") raw).map (Json.equalsInt 1)).getD false with
    | false =>
      cases ((lookup (text "schema_version") raw).map room.writable).getD true with
      | false => exact rfl
      | true => exact .error _
    | true =>
      have h := RunState.fromDictWith_follows raw room.keyCalls room.calls
      simp only [Bool.not_true, Bool.false_eq_true, ↓reduceIte]
      rw [DecodingRoom.copied]
      cases hf : (Shape.runState (Copied room.keyCalls room.calls)).fault (.obj raw) with
      | none =>
        rw [hf] at h
        obtain ⟨s, hs⟩ := h
        rw [hs]
        exact .ok s
      | some fault =>
        rw [hf] at h
        cases fault with
        | malformed =>
          obtain ⟨message, hs⟩ := h
          rw [hs]
          exact .error _
        | oversized =>
          obtain ⟨message, hs⟩ := h
          rw [hs]
          exact ⟨message, rfl⟩
        | tooDeep =>
          have hs : RunState.fromDictWith (jsonValueWithin room.keyCalls room.calls) raw =
              .error recursionError := h
          rw [hs]
          exact rfl
  | _ => exact .error _

section Loading

variable {jsonValue : Json → Except PyError Json} (hcopy : ∀ j v, jsonValue j = .ok v → v = j)
include hcopy

/-- What is decoded within a limit is decoded without one. -/
theorem WorkResult.fromDict_of_with {value : Fields} {r : WorkResult}
    (h : fromDictWith jsonValue value = .ok r) : fromDict value = .ok r := by
  have hitems {context name : Text} {items : List Json}
      (h : elements (fun _ => jsonValue) context value name = .ok items) :
      elements (fun _ => .ok) context value name = .ok items := by
    obtain ⟨xs, hxs, h⟩ := bind_ok h
    rw [elements, hxs, ok_bind]
    exact mapM_mono (fun j v hv => congrArg Except.ok (hcopy j v hv).symm) h
  rw [fromDictWith] at h
  rw [fromDict, fromDictWith]
  obtain ⟨workItemId, hid, h⟩ := bind_ok h
  obtain ⟨threadId, hthread, h⟩ := bind_ok h
  obtain ⟨turnId, hturn, h⟩ := bind_ok h
  obtain ⟨status, hstatus, h⟩ := bind_ok h
  obtain ⟨finalResponse, hresponse, h⟩ := bind_ok h
  obtain ⟨sdkItems, hsdk, h⟩ := bind_ok h
  rw [hid, ok_bind, hthread, ok_bind, hturn, ok_bind, hstatus, ok_bind, hresponse, ok_bind,
    hitems hsdk, ok_bind]
  exact h

theorem RunState.fromDict_of_with {value : Fields} {s : RunState}
    (h : fromDictWith jsonValue value = .ok s) : fromDict value = .ok s := by
  have hrecord (e : Text × Json) (r : Text × WorkResult)
      (h : recordOf (WorkResult.fromDictWith jsonValue) (text "results") e = .ok r) :
      recordOf (WorkResult.fromDictWith .ok) (text "results") e = .ok r := by
    obtain ⟨item, hi, h⟩ := bind_ok h
    obtain ⟨record, hr, h⟩ := bind_ok h
    have hr : WorkResult.fromDictWith .ok item = .ok record := WorkResult.fromDict_of_with hcopy hr
    rw [recordOf, hi, ok_bind, hr]
    exact h
  have hdecoded := catchInvalid_ok h
  obtain ⟨workItems, hitems, hdecoded⟩ := bind_ok hdecoded
  obtain ⟨routes, hroutes, hdecoded⟩ := bind_ok hdecoded
  obtain ⟨results, hresults, hdecoded⟩ := bind_ok hdecoded
  obtain ⟨fields, hfields, hresults⟩ := bind_ok hresults
  obtain ⟨entries, hentries, hresults⟩ := bind_ok hresults
  have hresults' :
      recordsOf (WorkResult.fromDictWith .ok) value (text "results") = .ok results := by
    rw [recordsOf, hfields, ok_bind, mapM_mono hrecord hentries]
    exact hresults
  rw [fromDict, fromDictWith, hitems, ok_bind, hroutes, ok_bind, hresults', ok_bind, hdecoded]
  rfl

end Loading

/-- What is loaded within the recursion limit is what `loadSync` loads. -/
theorem decodeSnapshot_ok {room : DecodingRoom} {host : Host} {runId : Text} {content : Json}
    {s : RunState} (h : decodeSnapshot room host runId content = .ok s) :
    loadSync host runId (.snapshot content) = .ok s := by
  cases content with
  | obj raw =>
    simp only [decodeSnapshot] at h
    rw [loadSync]
    cases hv : ((lookup (text "schema_version") raw).map (Json.equalsInt 1)).getD false with
    | false =>
      rw [hv] at h
      simp only [Bool.not_false, ↓reduceIte] at h
      split at h <;> cases h
    | true =>
      rw [hv] at h
      simp only [Bool.not_true, Bool.false_eq_true, ↓reduceIte] at h ⊢
      split at h
      · split at h <;> cases h
      · rename_i s' hs
        cases h
        have hcopy (j v : Json) := @jsonValueWithin_ok room.keyCalls room.calls j v
        rw [RunState.fromDict_of_with hcopy hs]
  | _ => cases h

/-- What `json.loads` comes to, on a text or on what `path.read_text(encoding="utf-8")` reads. -/
inductive Reading where
  | value (content : Json)
  /-- `OSError`, `UnicodeError` or `JSONDecodeError`. -/
  | unreadable (message : Text)
  /-- The `ValueError` of an integer literal past the limit on digits. -/
  | tooManyDigits (message : Text)
  /-- The `RecursionError` of brackets nested too deep. -/
  | tooDeep (message : Text)

/-- `_load_sync`, from what reading the file comes to. -/
def loadReading (room : DecodingRoom) (host : Host) (runId : Text) :
    Reading → Except PyError RunState
  | .value content => decodeSnapshot room host runId content
  | .unreadable message => .error (stateError
      (text "Run " ++ runId ++ text " state is corrupt or unreadable: " ++ message))
  | .tooManyDigits message => .error ⟨.valueError, message⟩
  | .tooDeep message => .error ⟨.other (text "RecursionError"), message⟩

/-- The file reads as a value whose first departure from the format is no oversized number and no
value nested too deep, or does not read as JSON at all. -/
def Reading.Tame (room : DecodingRoom) : Reading → Prop
  | .value content =>
    snapshotFault room content ≠ some .oversized ∧ snapshotFault room content ≠ some .tooDeep
  | .unreadable _ => True
  | .tooManyDigits _ | .tooDeep _ => False

def FailsClosed (r : Except PyError RunState) : Prop :=
  (∃ s, r = .ok s) ∨ ∃ e, r = .error e ∧ e.kind = .stateError

theorem not_failsClosed {r : Except PyError RunState} {e : PyError} (h : r = .error e)
    (hk : e.kind ≠ .stateError) : ¬FailsClosed r := by
  rintro (⟨s, hs⟩ | ⟨e', he, hk'⟩)
  · rw [h] at hs
    cases hs
  · rw [h] at he
    cases he
    exact hk hk'

/-- Loading a file of any bytes, under any reading of bytes as JSON. -/
theorem load_failsClosed_iff (room : DecodingRoom) (host : Host) (read : List UInt8 → Reading)
    (runId : Text) (bytes : List UInt8) :
    FailsClosed (loadReading room host runId (read bytes)) ↔ (read bytes).Tame room := by
  cases read bytes with
  | value content =>
    have h := decodeSnapshot_follows room host runId content
    rw [loadReading, Reading.Tame]
    cases hf : snapshotFault room content with
    | none =>
      rw [hf] at h
      obtain ⟨s, hs⟩ := h
      exact iff_of_true (.inl ⟨s, hs⟩) ⟨nofun, nofun⟩
    | some fault =>
      rw [hf] at h
      cases fault with
      | malformed =>
        obtain ⟨message, hs⟩ := h
        exact iff_of_true (.inr ⟨_, hs, rfl⟩) ⟨nofun, nofun⟩
      | oversized =>
        obtain ⟨message, hs⟩ := h
        exact iff_of_false (not_failsClosed hs nofun) fun hn => hn.1 rfl
      | tooDeep => exact iff_of_false (not_failsClosed h nofun) fun hn => hn.2 rfl
  | unreadable message => exact iff_of_true (.inr ⟨_, rfl, rfl⟩) trivial
  | tooManyDigits message => exact iff_of_false (not_failsClosed rfl nofun) id
  | tooDeep message => exact iff_of_false (not_failsClosed rfl nofun) id

/-- A snapshot with a work item whose confidence is no float's. -/
def oversizedSnapshot : Json := .obj [
  (text "schema_version", .int 1),
  (text "work_items", .obj [(text "a", .obj [
    (text "id", .str (text "a")),
    (text "title", .str (text "Title")),
    (text "instructions", .str (text "Do it")),
    (text "task", .str (text "work")),
    (text "phase", .str (text "one")),
    (text "dependencies", .arr []),
    (text "access", .str (text "read-only")),
    (text "affected_paths", .arr []),
    (text "expected_result", .str (text "Done")),
    (text "verification", .arr []),
    (text "confidence", .int (10 ^ 400))])])]

/-- What is left of a recursion limit of 1000. -/
def sampleRoom : DecodingRoom where
  calls := 980
  keyCalls := 2
  writable _ := true

theorem oversized_confidence_escapes :
    ¬FailsClosed (loadReading sampleRoom sampleHost (text "run") (.value oversizedSnapshot)) := by
  have he : loadReading sampleRoom sampleHost (text "run") (.value oversizedSnapshot) =
      .error ⟨.overflowError, text "int too large to convert to float"⟩ := by
    decide +kernel
  exact not_failsClosed he nofun

end GoalRouter
