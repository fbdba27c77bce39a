import GoalRouter.Redaction

namespace GoalRouter
open Library
set_option autoImplicit true

open StateField

/-- An enumeration whose texts are stored as they are. -/
class PlainEnum (α : Type) [StrEnum α] : Prop where
  plain : ∀ a : α, persistText (StrEnum.value a) = StrEnum.value a

instance : PlainEnum SandboxMode := ⟨fun a => by cases a <;> decide +kernel⟩
instance : PlainEnum ApprovalMode := ⟨fun a => by cases a <;> decide +kernel⟩
instance : PlainEnum AccessMode := ⟨fun a => by cases a <;> decide +kernel⟩
instance : PlainEnum WorkStatus := ⟨fun a => by cases a <;> decide +kernel⟩
instance : PlainEnum RunStatus := ⟨fun a => by cases a <;> decide +kernel⟩
instance : PlainEnum RouteSource := ⟨fun a => by cases a <;> decide +kernel⟩

theorem casefoldChar_digit (n : Nat) : casefoldChar (DateTime.digit n) = [DateTime.digit n] := by
  have hv := DateTime.digit_val n
  have h1 : ¬(65 ≤ (DateTime.digit n).val ∧ (DateTime.digit n).val ≤ 90) := by omega
  rw [casefoldChar, if_neg h1]
  split <;> first | rfl | omega

theorem persistText_isoformat (d : DateTime) : persistText d.isoformat = d.isoformat := by
  refine persistText_of_plain ?_ (joined_of_ascii (List.all_eq_true.1 d.isAscii_isoformat))
  obtain ⟨n, t, ht⟩ := d.isoformat_cons
  have hne {c : CodePoint} (hc : DateTime.isDigit c = false) : (c == DateTime.digit n) = false := by
    rw [beq_eq_false_iff_ne]
    exact (DateTime.digit_ne hc).symm
  have hs : (text "sk-").isPrefixOf d.isoformat = false := by
    rw [ht]
    exact Bool.and_eq_false_imp.2 fun h => by rw [hne (by decide)] at h; cases h
  have hb : (text "bearer ").isPrefixOf (casefold d.isoformat) = false := by
    rw [ht, casefold, List.flatMap_cons, casefoldChar_digit]
    exact Bool.and_eq_false_imp.2 fun h => by rw [hne (by decide)] at h; cases h
  rw [isSecretValue, hs, hb, Bool.false_and, Bool.false_or]

/-- The float that a float is after it was saved and loaded. -/
def persistFloat (x : PyFloat) : PyFloat := if PyFloat.isNaN x then PyFloat.nan else x

@[simp] theorem persistFloat_idem (x : PyFloat) :
    persistFloat (persistFloat x) = persistFloat x := by
  cases h : PyFloat.isNaN x <;> simp [persistFloat, h]

def persistPath (p : PurePath) : PurePath := PurePath.ofText (persistText p.text)

section Read

variable {fields : Fields} (k : Text) (hn : PlainNames (fields.map Prod.fst))
include hn

theorem read_field {j : Json} (h : lookup k fields = some j) :
    stateDecoder.field (persistFields fields) k = .ok (persistJson j) := by
  rw [Decoder.field, lookup_persistFields hn, h]
  rfl

theorem read_required {j : Json} {read : Text → Json → Except PyError α}
    (h : lookup k fields = some j) :
    stateDecoder.required read (persistFields fields) k = read k (persistJson j) := by
  rw [Decoder.required, read_field k hn h, ok_bind]

theorem read_string {t : Text} (h : lookup k fields = some (.str t)) :
    string (persistFields fields) k = .ok (persistText t) := by
  refine (read_required k hn h).trans ?_
  rw [persistJson_str]
  rfl

theorem read_optionalString {t : Option Text} (h : lookup k fields = some (optionalText t)) :
    optionalString (persistFields fields) k = .ok (t.map persistText) := by
  rw [optionalString, field, read_field k hn h]
  cases t <;> rfl

theorem read_boolean {b : Bool} (h : lookup k fields = some (.bool b)) :
    boolean (persistFields fields) k = .ok b :=
  read_required k hn h

theorem read_integer {n : Int} (h : lookup k fields = some (.int n)) :
    integer (persistFields fields) k = .ok n :=
  read_required k hn h

theorem read_number {x : PyFloat} (h : lookup k fields = some (.float x)) :
    number (persistFields fields) k = .ok (persistFloat x) :=
  read_required k hn h

theorem read_enum [StrEnum α] [PlainEnum α] {a : α} (h : lookup k fields = some (enumText a)) :
    enum α (persistFields fields) k = .ok a := by
  rw [enum, read_string k hn h, PlainEnum.plain]
  simp only [ok_bind, StrEnum.ofValue?_value]

theorem read_sequence {xs : List Json} (h : lookup k fields = some (.arr xs)) :
    sequence (persistFields fields) k = .ok (xs.map persistJson) := by
  refine (read_required k hn h).trans ?_
  rw [persistJson_arr]
  rfl

theorem read_jsonValues {xs : List Json} (context : Text) (h : lookup k fields = some (.arr xs)) :
    elements (fun _ => .ok) context (persistFields fields) k = .ok (xs.map persistJson) := by
  have hm : (xs.map persistJson).mapM (fun j => (.ok j : Except PyError Json)) =
      .ok ((xs.map persistJson).map id) := mapM_ok fun _ _ => rfl
  rw [elements, read_sequence k hn h, ok_bind]
  exact hm.trans (by rw [List.map_id])

theorem read_fieldMapping {fs : Fields} (h : lookup k fields = some (.obj fs)) :
    fieldMapping (persistFields fields) k = .ok (persistFields fs) := by
  refine (read_required k hn h).trans ?_
  rw [persistJson_obj]
  rfl

theorem read_datetime {d : DateTime} (h : lookup k fields = some (.str d.isoformat))
    (ho : d.offset ≠ none) : datetime (persistFields fields) k = .ok d := by
  rw [datetime, read_string k hn h, persistText_isoformat]
  simp only [ok_bind, DateTime.fromIsoformat_isoformat, if_neg ho]

theorem read_elements {xs : List α} {enc : α → Json} {read : Text → Json → Except PyError α}
    {per : α → α} {context : Text} (h : lookup k fields = some (.arr (xs.map enc)))
    (hr : ∀ x, read context (persistJson (enc x)) = .ok (per x)) :
    elements read context (persistFields fields) k = .ok (xs.map per) := by
  rw [elements, read_sequence k hn h, ok_bind, List.map_map, List.mapM_map]
  exact mapM_ok fun x _ => hr x

theorem read_strings {ts : List Text} (context : Text) (h : lookup k fields = some (textArray ts)) :
    strings (persistFields fields) k context = .ok (ts.map persistText) :=
  read_elements k hn h fun t => by rw [persistJson_str]; rfl

theorem read_paths {ps : List PurePath} (context : Text)
    (h : lookup k fields = some (pathArray ps)) :
    paths (persistFields fields) k context = .ok (ps.map persistPath) := by
  have ht : lookup k fields = some (textArray (ps.map PurePath.text)) := by
    rw [h, pathArray, textArray, List.map_map]
    rfl
  rw [paths, read_strings k hn context ht]
  simp only [Except.map, List.map_map]
  rfl

end Read

def InstructionFile.persisted (f : InstructionFile) : InstructionFile :=
  ⟨persistPath f.path, persistText f.content⟩

def Objective.persisted (o : Objective) : Objective :=
  { id := persistText o.id, prompt := persistText o.prompt,
    projectPath := persistPath o.projectPath,
    explicitTask := o.explicitTask.map persistText, configPath := persistPath o.configPath,
    createdAt := o.createdAt }

def RepositoryContext.persisted (r : RepositoryContext) : RepositoryContext :=
  { projectPath := persistPath r.projectPath, isGitWorktree := r.isGitWorktree,
    branch := r.branch.map persistText, dirtyPaths := r.dirtyPaths.map persistPath,
    instructionFiles := r.instructionFiles.map InstructionFile.persisted,
    languageCounts := r.languageCounts.map fun e => (persistText e.1, e.2),
    dockerFiles := r.dockerFiles.map persistPath,
    commandErrors := r.commandErrors.map persistText }

def WorkItem.persisted (i : WorkItem) : WorkItem :=
  { id := persistText i.id, title := persistText i.title,
    instructions := persistText i.instructions, task := persistText i.task,
    phase := persistText i.phase,
    dependencies := i.dependencies.map persistText, access := i.access,
    affectedPaths := i.affectedPaths.map persistPath,
    expectedResult := persistText i.expectedResult,
    verification := i.verification.map persistText, confidence := persistFloat i.confidence,
    riskFlags := TextSet.ofTexts (i.riskFlags.keys.map persistText) }

def RouteDecision.persisted (r : RouteDecision) : RouteDecision :=
  { task := persistText r.task, modelAlias := persistText r.modelAlias,
    model := persistText r.model,
    reasoningEffort := persistText r.reasoningEffort, sandbox := r.sandbox, approval := r.approval,
    timeoutSeconds := r.timeoutSeconds, maxAttempts := r.maxAttempts, destructive := r.destructive,
    externalWrite := r.externalWrite, escalationTask := r.escalationTask.map persistText,
    source := r.source, reason := persistText r.reason }

def WorkResult.persisted (r : WorkResult) : WorkResult :=
  { workItemId := persistText r.workItemId, threadId := r.threadId.map persistText,
    turnId := r.turnId.map persistText, status := r.status,
    finalResponse := r.finalResponse.map persistText, sdkItems := r.sdkItems.map persistJson,
    inputTokens := r.inputTokens, cachedInputTokens := r.cachedInputTokens,
    outputTokens := r.outputTokens, durationSeconds := persistFloat r.durationSeconds,
    changedPaths := r.changedPaths.map persistPath, verification := r.verification.map persistText,
    confidence := persistFloat r.confidence, escalationRequested := r.escalationRequested,
    error := r.error.map persistText }

def ApprovalRecord.persisted (r : ApprovalRecord) : ApprovalRecord :=
  { runId := persistText r.runId, workItemId := persistText r.workItemId,
    approvedBy := persistText r.approvedBy, approvedAt := r.approvedAt,
    configurationDigest := persistText r.configurationDigest,
    fingerprint := persistText r.fingerprint }

def persistDict (per : α → α) (m : Dict Text α) : Dict Text α := Dict.ofSorted (m.sorted.map per)

@[simp] theorem get?_persistDict (per : α → α) (m : Dict Text α) (k : Text) :
    (persistDict per m).get? k = (m.get? k).map per := by
  simp only [persistDict, Dict.get?_ofSorted, SortedMap.get?_map, Dict.get?_sorted]

theorem mem_keys_persistDict {per : α → α} {m : Dict Text α} {k : Text} :
    k ∈ (persistDict per m).keys ↔ k ∈ m.keys := by
  simp only [Dict.mem_keys, get?_persistDict, Option.map_eq_some_iff]
  constructor
  · rintro ⟨_, v, h, _⟩
    exact ⟨v, h⟩
  · rintro ⟨v, h⟩
    exact ⟨per v, v, h, rfl⟩

/-- What `load` makes of the snapshot that `save` wrote of a state. -/
def RunState.persisted (s : RunState) : RunState :=
  { schemaVersion := s.schemaVersion, configurationDigest := persistText s.configurationDigest,
    objective := s.objective.persisted, repository := s.repository.persisted,
    workItems := persistDict WorkItem.persisted s.workItems,
    routes := persistDict RouteDecision.persisted s.routes,
    results := persistDict WorkResult.persisted s.results,
    approvals := persistDict ApprovalRecord.persisted s.approvals, status := s.status }

theorem record_plainNames :
    (∀ f : InstructionFile, PlainNames (f.fields.map Prod.fst)) ∧
    (∀ o : Objective, PlainNames (o.fields.map Prod.fst)) ∧
    (∀ i : WorkItem, PlainNames (i.fields.map Prod.fst)) ∧
    (∀ d : RouteDecision, PlainNames (d.fields.map Prod.fst)) ∧
    (∀ r : WorkResult, PlainNames (r.fields.map Prod.fst)) ∧
    (∀ a : ApprovalRecord, PlainNames (a.fields.map Prod.fst)) ∧
    (∀ r : RepositoryContext, PlainNames (r.fields.map Prod.fst)) ∧
    (∀ e : Text × Int, PlainNames ((languageCountFields e).map Prod.fst)) ∧
    ∀ s : RunState, PlainNames (s.fields.map Prod.fst) := by
  refine ⟨?_, ?_, ?_, ?_, ?_, ?_, ?_, ?_, ?_⟩
  all_goals
    intro r
    simp only [InstructionFile.fields, Objective.fields, WorkItem.fields, RouteDecision.fields,
      WorkResult.fields, ApprovalRecord.fields, RepositoryContext.fields, languageCountFields,
      RunState.fields, List.map_cons, List.map_nil]
    decide +kernel

theorem InstructionFile.plainNames (f : InstructionFile) : PlainNames (f.fields.map Prod.fst) :=
  record_plainNames.1 f

theorem Objective.plainNames (o : Objective) : PlainNames (o.fields.map Prod.fst) :=
  record_plainNames.2.1 o

theorem WorkItem.plainNames (i : WorkItem) : PlainNames (i.fields.map Prod.fst) :=
  record_plainNames.2.2.1 i

theorem RouteDecision.plainNames (d : RouteDecision) : PlainNames (d.fields.map Prod.fst) :=
  record_plainNames.2.2.2.1 d

theorem WorkResult.plainNames (r : WorkResult) : PlainNames (r.fields.map Prod.fst) :=
  record_plainNames.2.2.2.2.1 r

theorem ApprovalRecord.plainNames (a : ApprovalRecord) : PlainNames (a.fields.map Prod.fst) :=
  record_plainNames.2.2.2.2.2.1 a

theorem RepositoryContext.plainNames (r : RepositoryContext) : PlainNames (r.fields.map Prod.fst) :=
  record_plainNames.2.2.2.2.2.2.1 r

theorem languageCount_plainNames (e : Text × Int) :
    PlainNames ((languageCountFields e).map Prod.fst) :=
  record_plainNames.2.2.2.2.2.2.2.1 e

theorem InstructionFile.fromDict_persisted (f : InstructionFile) :
    fromDict (persistFields f.fields) = .ok f.persisted := by
  have hn := f.plainNames
  rw [fromDict, read_string (text "path") hn rfl, read_string (text "content") hn rfl]
  rfl

theorem Objective.fromDict_persisted (o : Objective) (h : o.createdAt.offset ≠ none) :
    fromDict (persistFields o.fields) = .ok o.persisted := by
  have hn := o.plainNames
  rw [fromDict, read_string (text "id") hn rfl, read_string (text "prompt") hn rfl,
    read_string (text "project_path") hn rfl, read_optionalString (text "explicit_task") hn rfl,
    read_string (text "config_path") hn rfl, read_datetime (text "created_at") hn rfl h]
  rfl

theorem WorkItem.fromDict_persisted (i : WorkItem) :
    fromDict (persistFields i.fields) = .ok i.persisted := by
  have hn := i.plainNames
  rw [fromDict, read_string (text "id") hn rfl, read_string (text "title") hn rfl,
    read_string (text "instructions") hn rfl, read_string (text "task") hn rfl,
    read_string (text "phase") hn rfl, read_strings (text "dependencies") hn _ rfl,
    read_enum (text "access") hn rfl, read_paths (text "affected_paths") hn _ rfl,
    read_string (text "expected_result") hn rfl, read_strings (text "verification") hn _ rfl,
    read_number (text "confidence") hn rfl, read_strings (text "risk_flags") hn _ rfl]
  rfl

theorem RouteDecision.fromDict_persisted (r : RouteDecision) :
    fromDict (persistFields r.fields) = .ok r.persisted := by
  have hn := r.plainNames
  rw [fromDict, read_string (text "task") hn rfl, read_string (text "model_alias") hn rfl,
    read_string (text "model") hn rfl, read_string (text "reasoning_effort") hn rfl,
    read_enum (text "sandbox") hn rfl, read_enum (text "approval") hn rfl,
    read_integer (text "timeout_seconds") hn rfl, read_integer (text "max_attempts") hn rfl,
    read_boolean (text "destructive") hn rfl, read_boolean (text "external_write") hn rfl,
    read_optionalString (text "escalation_task") hn rfl, read_enum (text "source") hn rfl,
    read_string (text "reason") hn rfl]
  rfl

theorem WorkResult.fromDict_persisted (r : WorkResult) :
    fromDict (persistFields r.fields) = .ok r.persisted := by
  have hn := r.plainNames
  rw [fromDict, fromDictWith, read_string (text "work_item_id") hn rfl,
    read_optionalString (text "thread_id") hn rfl, read_optionalString (text "turn_id") hn rfl,
    read_enum (text "status") hn rfl, read_optionalString (text "final_response") hn rfl,
    read_jsonValues (text "sdk_items") hn _ rfl, read_integer (text "input_tokens") hn rfl,
    read_integer (text "cached_input_tokens") hn rfl, read_integer (text "output_tokens") hn rfl,
    read_number (text "duration_seconds") hn rfl, read_paths (text "changed_paths") hn _ rfl,
    read_strings (text "verification") hn _ rfl, read_number (text "confidence") hn rfl,
    read_boolean (text "escalation_requested") hn rfl, read_optionalString (text "error") hn rfl]
  rfl

theorem ApprovalRecord.fromDict_persisted (r : ApprovalRecord) (h : r.approvedAt.offset ≠ none) :
    fromDict (persistFields r.fields) = .ok r.persisted := by
  have hn := r.plainNames
  rw [fromDict, read_string (text "run_id") hn rfl, read_string (text "work_item_id") hn rfl,
    read_string (text "approved_by") hn rfl, read_datetime (text "approved_at") hn rfl h,
    read_string (text "configuration_digest") hn rfl, read_string (text "fingerprint") hn rfl]
  rfl

theorem instructionFileOf_persisted (context : Text) (f : InstructionFile) :
    instructionFileOf context (persistJson f.toDict) = .ok f.persisted := by
  rw [instructionFileOf, InstructionFile.toDict, persistJson_obj]
  exact f.fromDict_persisted

theorem languageCountOf_persisted (context : Text) (e : Text × Int) :
    languageCountOf context (persistJson (languageCount e)) = .ok (persistText e.1, e.2) := by
  have hn := languageCount_plainNames e
  have hm : mapping context (.obj (persistFields (languageCountFields e))) =
      .ok (persistFields (languageCountFields e)) := rfl
  rw [languageCountOf, languageCount, persistJson_obj, hm, ok_bind,
    read_string (text "language") hn rfl, ok_bind, read_integer (text "count") hn rfl]
  rfl

theorem RepositoryContext.fromDict_persisted (r : RepositoryContext) :
    fromDict (persistFields r.fields) = .ok r.persisted := by
  have hn := r.plainNames
  rw [fromDict,
    read_elements (text "instruction_files") hn rfl fun f => instructionFileOf_persisted _ f,
    read_elements (text "language_counts") hn rfl fun e => languageCountOf_persisted _ e,
    read_string (text "project_path") hn rfl, read_boolean (text "is_git_worktree") hn rfl,
    read_optionalString (text "branch") hn rfl, read_paths (text "dirty_paths") hn _ rfl,
    read_paths (text "docker_files") hn _ rfl, read_strings (text "command_errors") hn _ rfl]
  rfl

/-- A dictionary key that is stored as it is and does not hide its value. -/
def PlainKey (k : Text) : Prop := joinSurrogates k = k ∧ isSecretKey k = false

theorem persistFields_dict {m : Dict Text α} (enc : α → Json)
    (hk : ∀ k ∈ m.keys, joinSurrogates k = k) :
    persistFields (m.sorted.entries.map fun e => (e.1, enc e.2)) =
      m.sorted.entries.map fun e => (e.1, persistMember e.1 (enc e.2)) := by
  rw [persistFields, List.map_map]
  apply Json.reloadKeys_of_ordered
  · rw [Ordered, List.pairwise_map]
    exact m.sorted.ordered
  · intro e he
    obtain ⟨d, hd, rfl⟩ := List.mem_map.1 he
    exact hk _ (Dict.mem_sorted_keys.1 (List.mem_map_of_mem hd))

section Records

variable {fields : Fields} {itemFields : α → Fields} {m : Dict Text α}
  {dec : Fields → Except PyError α}

theorem recordsOf_persisted {per : α → α} (k : Text) (hn : PlainNames (fields.map Prod.fst))
    (h : lookup k fields = some (dictOf (fun v => .obj (itemFields v)) m))
    (hk : ∀ k ∈ m.keys, PlainKey k)
    (hd : ∀ v ∈ m.values, dec (persistFields (itemFields v)) = .ok (per v)) :
    recordsOf dec (persistFields fields) k = .ok (persistDict per m) := by
  have hmem (e : Text × α) (he : e ∈ m.sorted.entries) : e.1 ∈ m.keys ∧ e.2 ∈ m.values := by
    have hg : m.get? e.1 = some e.2 := by
      rw [← Dict.get?_sorted]
      exact SortedMap.mem_entries.1 he
    exact ⟨Dict.mem_keys_of_get? hg, Dict.mem_values.2 ⟨_, hg⟩⟩
  rw [recordsOf, read_fieldMapping k hn h, ok_bind,
    persistFields_dict (fun v => .obj (itemFields v)) fun k hm => (hk k hm).1, List.mapM_map,
    mapM_ok (g := fun e => (e.1, per e.2))]
  · have hd : ((m.sorted.map per).entries.map Prod.fst).Nodup := (m.sorted.map per).keys_nodup
    have he : Dict.ofList (m.sorted.map per).entries = persistDict per m := by
      cases ho : Dict.ofList (m.sorted.map per).entries with
      | mk entries nodup =>
        have hl := Dict.ofList_entries hd
        rw [ho] at hl
        cases hl
        rfl
    exact congrArg Except.ok he
  · intro e he
    obtain ⟨h1, h2⟩ := hmem e he
    simp only [Function.comp_apply, recordOf, persistMember, (hk e.1 h1).2, Bool.false_eq_true,
      ↓reduceIte, persistJson_obj]
    have hm (context : Text) : mapping context (.obj (persistFields (itemFields e.2))) =
        .ok (persistFields (itemFields e.2)) := rfl
    rw [hm, ok_bind, hd e.2 h2]
    rfl

/-- A record under a secret key is gone, and the dictionary cannot be read. -/
theorem recordsOf_secret (k : Text) (hn : PlainNames (fields.map Prod.fst))
    (h : lookup k fields = some (dictOf (fun v => .obj (itemFields v)) m))
    (hj : ∀ k ∈ m.keys, joinSurrogates k = k) {key : Text} (hm : key ∈ m.keys)
    (hs : isSecretKey key = true) :
    ∃ e, recordsOf dec (persistFields fields) k = .error e := by
  obtain ⟨v, hv⟩ := Dict.mem_keys.1 hm
  have he : (key, v) ∈ m.sorted.entries := SortedMap.mem_entries.2 (by rw [Dict.get?_sorted, hv])
  rw [recordsOf, read_fieldMapping k hn h, ok_bind,
    persistFields_dict (fun v => .obj (itemFields v)) hj, List.mapM_map]
  have hr : recordOf dec k (key, persistMember key (.obj (itemFields v))) =
      .error (stateDecoder.expected (text "object") (k ++ text "." ++ key)) := by
    rw [recordOf, persistMember, if_pos hs]
    rfl
  obtain ⟨e, he⟩ := mapM_error he (show (recordOf dec k ∘ fun e : Text × α =>
    (e.1, persistMember e.1 (.obj (itemFields e.2)))) (key, v) = .error _ from hr)
  exact ⟨e, by rw [he]; rfl⟩

end Records

/-- Every time in the state knows its offset from UTC. -/
def RunState.Aware (s : RunState) : Prop :=
  s.objective.createdAt.offset ≠ none ∧ ∀ r ∈ s.approvals.values, r.approvedAt.offset ≠ none

structure RunState.PlainKeys (s : RunState) : Prop where
  workItems : ∀ k ∈ s.workItems.keys, PlainKey k
  routes : ∀ k ∈ s.routes.keys, PlainKey k
  results : ∀ k ∈ s.results.keys, PlainKey k
  approvals : ∀ k ∈ s.approvals.keys, PlainKey k

theorem RunState.plainNames (s : RunState) : PlainNames (s.fields.map Prod.fst) :=
  record_plainNames.2.2.2.2.2.2.2.2 s

/-- Decoding undoes encoding, up to what redaction and the JSON text change. -/
theorem RunState.fromDict_persisted (s : RunState) (ha : s.Aware) (hk : s.PlainKeys) :
    fromDict (persistFields s.fields) = .ok s.persisted := by
  have hn := s.plainNames
  have hresult (r : WorkResult) := r.fromDict_persisted
  rw [WorkResult.fromDict] at hresult
  rw [fromDict, fromDictWith,
    recordsOf_persisted (text "work_items") hn rfl hk.workItems
      fun i _ => i.fromDict_persisted,
    recordsOf_persisted (text "routes") hn rfl hk.routes fun r _ => r.fromDict_persisted,
    recordsOf_persisted (text "results") hn rfl hk.results fun r _ => hresult r,
    recordsOf_persisted (text "approvals") hn rfl hk.approvals
      fun r hr => r.fromDict_persisted (ha.2 r hr),
    read_integer (text "schema_version") hn rfl, read_string (text "configuration_digest") hn rfl,
    read_fieldMapping (text "objective") hn rfl, read_fieldMapping (text "repository") hn rfl,
    read_enum (text "status") hn rfl]
  simp only [ok_bind, s.objective.fromDict_persisted ha.1, s.repository.fromDict_persisted]
  rfl

theorem RunState.fromDict_secret (s : RunState) (hj : ∀ k ∈ s.workItems.keys, joinSurrogates k = k)
    {key : Text} (hm : key ∈ s.workItems.keys) (hs : isSecretKey key = true) :
    ∃ e, fromDict (persistFields s.fields) = .error e := by
  obtain ⟨e, he⟩ : ∃ e, recordsOf WorkItem.fromDict (persistFields s.fields) (text "work_items") =
      .error e := recordsOf_secret (text "work_items") s.plainNames rfl hj hm hs
  rw [fromDict, fromDictWith, he, error_bind, catchInvalid.eq_def]
  split <;> exact ⟨_, rfl⟩

end GoalRouter
