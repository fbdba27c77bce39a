import GoalRouter.IdentifierRedaction

namespace GoalRouter
open Library
set_option autoImplicit true

open StateField

section Read

variable {fields : Fields} (k : Text)

theorem decode_required {j : Json} {read : Text → Json → Except PyError α}
    (h : lookup k fields = some j) : stateDecoder.required read fields k = read k j := by
  rw [Decoder.required, Decoder.field, h, ok_bind]

theorem decode_string {t : Text} (h : lookup k fields = some (.str t)) :
    string fields k = .ok t :=
  decode_required k h

theorem decode_optionalString {t : Option Text} (h : lookup k fields = some (optionalText t)) :
    optionalString fields k = .ok t := by
  rw [optionalString, field, Decoder.field, h]
  cases t <;> rfl

theorem decode_boolean {b : Bool} (h : lookup k fields = some (.bool b)) :
    boolean fields k = .ok b :=
  decode_required k h

theorem decode_integer {n : Int} (h : lookup k fields = some (.int n)) :
    integer fields k = .ok n :=
  decode_required k h

theorem decode_number {x : PyFloat} (h : lookup k fields = some (.float x)) :
    number fields k = .ok x :=
  decode_required k h

theorem decode_sequence {xs : List Json} (h : lookup k fields = some (.arr xs)) :
    sequence fields k = .ok xs :=
  decode_required k h

theorem decode_fieldMapping {fs : Fields} (h : lookup k fields = some (.obj fs)) :
    fieldMapping fields k = .ok fs :=
  decode_required k h

theorem decode_enum [StrEnum α] {a : α} (h : lookup k fields = some (enumText a)) :
    enum α fields k = .ok a := by
  rw [enum, decode_string k h]
  simp only [ok_bind, StrEnum.ofValue?_value]

theorem decode_datetime {d : DateTime} (h : lookup k fields = some (.str d.isoformat))
    (ho : d.offset ≠ none) : datetime fields k = .ok d := by
  rw [datetime, decode_string k h]
  simp only [ok_bind, DateTime.fromIsoformat_isoformat, if_neg ho]

theorem decode_elements {xs : List α} {enc : α → Json} {read : Text → Json → Except PyError α}
    {context : Text} (h : lookup k fields = some (.arr (xs.map enc)))
    (hr : ∀ x, read context (enc x) = .ok x) : elements read context fields k = .ok xs := by
  have hm : xs.mapM (read context ∘ enc) = .ok (xs.map id) := mapM_ok fun x _ => hr x
  rw [elements, decode_sequence k h, ok_bind, List.mapM_map, hm, List.map_id]

theorem decode_strings {ts : List Text} (context : Text)
    (h : lookup k fields = some (textArray ts)) :
    strings fields k context = .ok ts :=
  decode_elements k h fun _ => rfl

theorem decode_paths {ps : List PurePath} (context : Text)
    (h : lookup k fields = some (pathArray ps)) : paths fields k context = .ok ps := by
  have ht : lookup k fields = some (textArray (ps.map PurePath.text)) := by
    rw [h, pathArray, textArray, List.map_map]
    rfl
  rw [paths, decode_strings k context ht]
  simp only [Except.map, List.map_map, Function.comp_def, PurePath.ofText_text, List.map_id']

end Read

theorem InstructionFile.fromDict_fields (f : InstructionFile) : fromDict f.fields = .ok f := by
  rw [fromDict, decode_string (text "path") rfl, decode_string (text "content") rfl]
  simp only [ok_bind, PurePath.ofText_text]
  rfl

theorem Objective.fromDict_fields (o : Objective) (h : o.createdAt.offset ≠ none) :
    fromDict o.fields = .ok o := by
  rw [fromDict, decode_string (text "id") rfl, decode_string (text "prompt") rfl,
    decode_string (text "project_path") rfl, decode_optionalString (text "explicit_task") rfl,
    decode_string (text "config_path") rfl, decode_datetime (text "created_at") rfl h]
  simp only [ok_bind, PurePath.ofText_text]
  rfl

theorem WorkItem.fromDict_fields (i : WorkItem) : fromDict i.fields = .ok i := by
  rw [fromDict, decode_string (text "id") rfl, decode_string (text "title") rfl,
    decode_string (text "instructions") rfl, decode_string (text "task") rfl,
    decode_string (text "phase") rfl, decode_strings (text "dependencies") _ rfl,
    decode_enum (text "access") rfl, decode_paths (text "affected_paths") _ rfl,
    decode_string (text "expected_result") rfl, decode_strings (text "verification") _ rfl,
    decode_number (text "confidence") rfl, decode_strings (text "risk_flags") _ rfl]
  simp only [ok_bind, TextSet.ofTexts_keys]
  rfl

theorem RouteDecision.fromDict_fields (r : RouteDecision) : fromDict r.fields = .ok r := by
  rw [fromDict, decode_string (text "task") rfl, decode_string (text "model_alias") rfl,
    decode_string (text "model") rfl, decode_string (text "reasoning_effort") rfl,
    decode_enum (text "sandbox") rfl, decode_enum (text "approval") rfl,
    decode_integer (text "timeout_seconds") rfl, decode_integer (text "max_attempts") rfl,
    decode_boolean (text "destructive") rfl, decode_boolean (text "external_write") rfl,
    decode_optionalString (text "escalation_task") rfl, decode_enum (text "source") rfl,
    decode_string (text "reason") rfl]
  rfl

theorem WorkResult.fromDictWith_fields {jsonValue : Json → Except PyError Json} (r : WorkResult)
    (h : ∀ j ∈ r.sdkItems, jsonValue j = .ok j) : fromDictWith jsonValue r.fields = .ok r := by
  have hitems (context : Text) :
      elements (fun _ => jsonValue) context r.fields (text "sdk_items") = .ok r.sdkItems := by
    have hm : r.sdkItems.mapM jsonValue = .ok (r.sdkItems.map id) := mapM_ok h
    rw [elements, decode_sequence (text "sdk_items") rfl, ok_bind]
    exact hm.trans (by rw [List.map_id])
  rw [fromDictWith, decode_string (text "work_item_id") rfl,
    decode_optionalString (text "thread_id") rfl, decode_optionalString (text "turn_id") rfl,
    decode_enum (text "status") rfl, decode_optionalString (text "final_response") rfl,
    hitems, decode_integer (text "input_tokens") rfl,
    decode_integer (text "cached_input_tokens") rfl, decode_integer (text "output_tokens") rfl,
    decode_number (text "duration_seconds") rfl, decode_paths (text "changed_paths") _ rfl,
    decode_strings (text "verification") _ rfl, decode_number (text "confidence") rfl,
    decode_boolean (text "escalation_requested") rfl, decode_optionalString (text "error") rfl]
  rfl

theorem ApprovalRecord.fromDict_fields (r : ApprovalRecord) (h : r.approvedAt.offset ≠ none) :
    fromDict r.fields = .ok r := by
  rw [fromDict, decode_string (text "run_id") rfl, decode_string (text "work_item_id") rfl,
    decode_string (text "approved_by") rfl, decode_datetime (text "approved_at") rfl h,
    decode_string (text "configuration_digest") rfl, decode_string (text "fingerprint") rfl]
  rfl

theorem instructionFileOf_toDict (context : Text) (f : InstructionFile) :
    instructionFileOf context f.toDict = .ok f :=
  f.fromDict_fields

theorem languageCountOf_languageCount (context : Text) (e : Text × Int) :
    languageCountOf context (languageCount e) = .ok e := by
  have hm : mapping context (languageCount e) = .ok (languageCountFields e) := rfl
  rw [languageCountOf, hm, ok_bind, decode_string (text "language") rfl, ok_bind,
    decode_integer (text "count") rfl]
  rfl

theorem RepositoryContext.fromDict_fields (r : RepositoryContext) : fromDict r.fields = .ok r := by
  rw [fromDict,
    decode_elements (text "instruction_files") rfl fun f => instructionFileOf_toDict _ f,
    decode_elements (text "language_counts") rfl fun e => languageCountOf_languageCount _ e,
    decode_string (text "project_path") rfl, decode_boolean (text "is_git_worktree") rfl,
    decode_optionalString (text "branch") rfl, decode_paths (text "dirty_paths") _ rfl,
    decode_paths (text "docker_files") _ rfl, decode_strings (text "command_errors") _ rfl]
  simp only [ok_bind, PurePath.ofText_text]
  rfl

/-- The same dictionary, its entries in key order. -/
def sortedDict (m : Dict Text α) : Dict Text α := Dict.ofSorted m.sorted

@[simp] theorem get?_sortedDict (m : Dict Text α) (k : Text) :
    (sortedDict m).get? k = m.get? k := by
  rw [sortedDict, Dict.get?_ofSorted, Dict.get?_sorted]

theorem decode_records {fields : Fields} {itemFields : α → Fields} {m : Dict Text α}
    {dec : Fields → Except PyError α} (k : Text)
    (h : lookup k fields = some (dictOf (fun v => .obj (itemFields v)) m))
    (hd : ∀ v ∈ m.values, dec (itemFields v) = .ok v) :
    recordsOf dec fields k = .ok (sortedDict m) := by
  have hm : (m.sorted.entries.map fun e => (e.1, Json.obj (itemFields e.2))).mapM
      (recordOf dec k) = .ok (m.sorted.entries.map id) := by
    rw [List.mapM_map]
    apply mapM_ok
    intro e he
    have hv : e.2 ∈ m.values := by
      apply Dict.mem_values.2
      exact ⟨e.1, by rw [← Dict.get?_sorted]; exact SortedMap.mem_entries.1 he⟩
    have ho (context : Text) : mapping context (.obj (itemFields e.2)) = .ok (itemFields e.2) := rfl
    rw [Function.comp_apply, recordOf, ho, ok_bind, hd e.2 hv]
    rfl
  rw [recordsOf, decode_fieldMapping k h, ok_bind, hm, List.map_id]
  have he : Dict.ofList m.sorted.entries = sortedDict m := by
    have hl := Dict.ofList_entries m.sorted.keys_nodup
    cases ho : Dict.ofList m.sorted.entries with
    | mk entries nodup =>
      rw [ho] at hl
      cases hl
      rfl
  exact congrArg Except.ok he

/-- The same state, its dictionaries in key order. -/
def RunState.sorted (s : RunState) : RunState :=
  { s with
    workItems := sortedDict s.workItems
    routes := sortedDict s.routes
    results := sortedDict s.results
    approvals := sortedDict s.approvals }

theorem RunState.fromDictWith_fields {jsonValue : Json → Except PyError Json} (s : RunState)
    (ha : s.Aware) (h : ∀ r ∈ s.results.values, ∀ j ∈ r.sdkItems, jsonValue j = .ok j) :
    fromDictWith jsonValue s.fields = .ok s.sorted := by
  rw [fromDictWith,
    decode_records (text "work_items") rfl fun i _ => i.fromDict_fields,
    decode_records (text "routes") rfl fun r _ => r.fromDict_fields,
    decode_records (text "results") rfl fun r hr => r.fromDictWith_fields (h r hr),
    decode_records (text "approvals") rfl fun r hr => r.fromDict_fields (ha.2 r hr),
    decode_integer (text "schema_version") rfl, decode_string (text "configuration_digest") rfl,
    decode_fieldMapping (text "objective") rfl, decode_fieldMapping (text "repository") rfl,
    decode_enum (text "status") rfl]
  simp only [ok_bind, s.objective.fromDict_fields ha.1, s.repository.fromDict_fields]
  rfl

theorem RunState.fromDict_fields (s : RunState) (ha : s.Aware) : fromDict s.fields = .ok s.sorted :=
  s.fromDictWith_fields ha fun _ _ _ _ => rfl

/-- The offset of each time of a state under the other value of its `fold`. -/
structure TimeZones where
  createdAt : Option Int
  approvedAt : Text → Option Int

def InstructionFile.texts (f : InstructionFile) : List Text := [f.path.text, f.content]

def Objective.texts (o : Objective) : List Text :=
  [o.id, o.prompt, o.projectPath.text, o.configPath.text] ++ o.explicitTask.toList

def RepositoryContext.texts (r : RepositoryContext) : List Text :=
  r.projectPath.text :: r.branch.toList ++ r.dirtyPaths.map PurePath.text ++
    r.instructionFiles.flatMap InstructionFile.texts ++ r.languageCounts.map Prod.fst ++
    r.dockerFiles.map PurePath.text ++ r.commandErrors

def WorkItem.texts (i : WorkItem) : List Text :=
  [i.id, i.title, i.instructions, i.task, i.phase, i.expectedResult] ++ i.dependencies ++
    i.affectedPaths.map PurePath.text ++ i.verification ++ i.riskFlags.keys

def RouteDecision.texts (r : RouteDecision) : List Text :=
  [r.task, r.modelAlias, r.model, r.reasoningEffort, r.reason] ++ r.escalationTask.toList

/-- The strings of a result outside its SDK items. -/
def WorkResult.texts (r : WorkResult) : List Text :=
  r.workItemId :: r.threadId.toList ++ r.turnId.toList ++ r.finalResponse.toList ++
    r.changedPaths.map PurePath.text ++ r.verification ++ r.error.toList

def ApprovalRecord.texts (r : ApprovalRecord) : List Text :=
  [r.runId, r.workItemId, r.approvedBy, r.configurationDigest, r.fingerprint]

/-- A state whose times know their offset, which is the same for both values of `fold`, whose floats
are numbers, whose integers and nesting are within the limits, and in whose strings no high
surrogate stands right before a low one. -/
structure RunState.Portable (limits : InterpreterLimits) (zones : TimeZones) (s : RunState) :
    Prop where
  aware : s.Aware
  createdAt : zones.createdAt = s.objective.createdAt.offset
  approvedAt : ∀ k record, s.approvals.get? k = some record →
    zones.approvedAt k = record.approvedAt.offset
  digest : Joined s.configurationDigest
  objective : ∀ t ∈ s.objective.texts, Joined t
  repository : ∀ t ∈ s.repository.texts, Joined t
  workItems : ∀ k item, s.workItems.get? k = some item →
    (∀ t ∈ k :: item.texts, Joined t) ∧ PyFloat.isNaN item.confidence = false
  routes : ∀ k decision, s.routes.get? k = some decision → ∀ t ∈ k :: decision.texts, Joined t
  results : ∀ k r, s.results.get? k = some r → (∀ t ∈ k :: r.texts, Joined t) ∧
    PyFloat.isNaN r.durationSeconds = false ∧ PyFloat.isNaN r.confidence = false ∧
    ∀ j ∈ r.sdkItems, j.Intact
  approvals : ∀ k record, s.approvals.get? k = some record → ∀ t ∈ k :: record.texts, Joined t
  digits : s.toDict.Printable limits.digits
  nesting : s.toDict.nesting ≤ limits.nesting
  calls : ∀ r ∈ s.results.values, ∀ j ∈ r.sdkItems,
    (jsonCopy limits.keyCalls).depth j ≤ limits.calls

section Intact

open Json

theorem intact_fields {fields : Fields} (hn : PlainNames (fields.map Prod.fst))
    (h : ∀ e ∈ fields, e.2.Intact) : Intact (.obj fields) := by
  refine .obj hn.1 (fun e he => ?_) h
  rw [← (hn.2 e.1 (List.mem_map_of_mem he)).1]
  exact joined_joinSurrogates e.1

theorem intact_optionalText {t : Option Text} (h : ∀ u ∈ t.toList, Joined u) :
    (optionalText t).Intact := by
  cases t with
  | none => exact .null
  | some t => exact .str (h t List.mem_cons_self)

theorem intact_textArray {ts : List Text} (h : ∀ t ∈ ts, Joined t) : (textArray ts).Intact := by
  apply Intact.arr
  intro j hj
  obtain ⟨t, ht, rfl⟩ := List.mem_map.1 hj
  exact .str (h t ht)

theorem intact_pathArray {ps : List PurePath} (h : ∀ t ∈ ps.map PurePath.text, Joined t) :
    (pathArray ps).Intact := by
  apply Intact.arr
  intro j hj
  obtain ⟨p, hp, rfl⟩ := List.mem_map.1 hj
  exact .str (h _ (List.mem_map_of_mem hp))

theorem intact_enum [StrEnum α] [PlainEnum α] (a : α) : (enumText a).Intact := by
  apply Intact.str
  rw [← PlainEnum.plain a]
  exact joined_joinSurrogates _

theorem intact_isoformat (d : DateTime) : Intact (.str d.isoformat) :=
  .str (joined_of_ascii (List.all_eq_true.1 d.isAscii_isoformat))

theorem InstructionFile.intact {f : InstructionFile} (h : ∀ t ∈ f.texts, Joined t) :
    f.toDict.Intact := by
  simp only [texts, List.forall_mem_cons] at h
  obtain ⟨hpath, hcontent, _⟩ := h
  apply intact_fields f.plainNames
  simp only [fields, List.forall_mem_cons]
  exact ⟨.str hpath, .str hcontent, List.forall_mem_nil _⟩

theorem Objective.intact {o : Objective} (h : ∀ t ∈ o.texts, Joined t) : o.toDict.Intact := by
  simp only [texts, List.forall_mem_append, List.forall_mem_cons] at h
  obtain ⟨⟨hid, hprompt, hproject, hconfig, _⟩, htask⟩ := h
  apply intact_fields o.plainNames
  simp only [fields, List.forall_mem_cons]
  exact ⟨.str hid, .str hprompt, .str hproject, intact_optionalText htask, .str hconfig,
    intact_isoformat _, List.forall_mem_nil _⟩

theorem languageCount_intact {e : Text × Int} (h : Joined e.1) : (languageCount e).Intact := by
  apply intact_fields (languageCount_plainNames e)
  simp only [languageCountFields, List.forall_mem_cons]
  exact ⟨.str h, .int _, List.forall_mem_nil _⟩

theorem RepositoryContext.intact {r : RepositoryContext} (h : ∀ t ∈ r.texts, Joined t) :
    r.toDict.Intact := by
  simp only [texts, List.cons_append, List.forall_mem_append, List.forall_mem_cons] at h
  obtain ⟨hproject, ⟨⟨⟨⟨hbranch, hdirty⟩, hfiles⟩, hlanguages⟩, hdocker⟩, herrors⟩ := h
  apply intact_fields r.plainNames
  simp only [fields, List.forall_mem_cons]
  refine ⟨.str hproject, .bool _, intact_optionalText hbranch, intact_pathArray hdirty,
    .arr ?_, .arr ?_, intact_pathArray hdocker, intact_textArray herrors, List.forall_mem_nil _⟩
  · intro j hj
    obtain ⟨f, hf, rfl⟩ := List.mem_map.1 hj
    exact InstructionFile.intact fun t ht => hfiles t (List.mem_flatMap.2 ⟨f, hf, ht⟩)
  · intro j hj
    obtain ⟨e, he, rfl⟩ := List.mem_map.1 hj
    exact languageCount_intact (hlanguages _ (List.mem_map_of_mem he))

theorem WorkItem.intact {i : WorkItem} (h : ∀ t ∈ i.texts, Joined t)
    (hc : PyFloat.isNaN i.confidence = false) : i.toDict.Intact := by
  simp only [texts, List.forall_mem_append, List.forall_mem_cons] at h
  obtain ⟨⟨⟨⟨⟨hid, htitle, hinstructions, htask, hphase, hresult, _⟩, hdependencies⟩, hpaths⟩,
    hverification⟩, hflags⟩ := h
  apply intact_fields i.plainNames
  simp only [fields, List.forall_mem_cons]
  exact ⟨.str hid, .str htitle, .str hinstructions, .str htask, .str hphase,
    intact_textArray hdependencies, intact_enum _, intact_pathArray hpaths, .str hresult,
    intact_textArray hverification, .float hc, intact_textArray hflags, List.forall_mem_nil _⟩

theorem RouteDecision.intact {r : RouteDecision} (h : ∀ t ∈ r.texts, Joined t) :
    r.toDict.Intact := by
  simp only [texts, List.forall_mem_append, List.forall_mem_cons] at h
  obtain ⟨⟨htask, halias, hmodel, heffort, hreason, _⟩, hescalation⟩ := h
  apply intact_fields r.plainNames
  simp only [fields, List.forall_mem_cons]
  exact ⟨.str htask, .str halias, .str hmodel, .str heffort, intact_enum _, intact_enum _,
    .int _, .int _, .bool _, .bool _, intact_optionalText hescalation, intact_enum _,
    .str hreason, List.forall_mem_nil _⟩

theorem WorkResult.intact {r : WorkResult} (h : ∀ t ∈ r.texts, Joined t)
    (hd : PyFloat.isNaN r.durationSeconds = false) (hc : PyFloat.isNaN r.confidence = false)
    (hs : ∀ j ∈ r.sdkItems, j.Intact) : r.toDict.Intact := by
  simp only [texts, List.cons_append, List.forall_mem_append, List.forall_mem_cons] at h
  obtain ⟨hid, ⟨⟨⟨⟨hthread, hturn⟩, hresponse⟩, hpaths⟩, hverification⟩, herror⟩ := h
  apply intact_fields r.plainNames
  simp only [fields, List.forall_mem_cons]
  exact ⟨.str hid, intact_optionalText hthread, intact_optionalText hturn, intact_enum _,
    intact_optionalText hresponse, .arr hs, .int _, .int _, .int _, .float hd,
    intact_pathArray hpaths, intact_textArray hverification, .float hc, .bool _,
    intact_optionalText herror, List.forall_mem_nil _⟩

theorem ApprovalRecord.intact {r : ApprovalRecord} (h : ∀ t ∈ r.texts, Joined t) :
    r.toDict.Intact := by
  simp only [texts, List.forall_mem_cons] at h
  obtain ⟨hrun, hitem, hby, hdigest, hfingerprint, _⟩ := h
  apply intact_fields r.plainNames
  simp only [fields, List.forall_mem_cons]
  exact ⟨.str hrun, .str hitem, .str hby, intact_isoformat _, .str hdigest, .str hfingerprint,
    List.forall_mem_nil _⟩

theorem intact_dictOf {m : Dict Text α} {enc : α → Json}
    (h : ∀ k v, m.get? k = some v → Joined k ∧ (enc v).Intact) : (dictOf enc m).Intact := by
  have hget (e : Text × α) (he : e ∈ m.sorted.entries) : m.get? e.1 = some e.2 := by
    rw [← Dict.get?_sorted]
    exact SortedMap.mem_entries.1 he
  apply Intact.obj
  · rw [List.map_map]
    exact m.sorted.keys_nodup
  · intro e he
    obtain ⟨d, hd, rfl⟩ := List.mem_map.1 he
    exact (h _ _ (hget d hd)).1
  · intro e he
    obtain ⟨d, hd, rfl⟩ := List.mem_map.1 he
    exact (h _ _ (hget d hd)).2

theorem RunState.Portable.intact {limits : InterpreterLimits} {zones : TimeZones} {s : RunState}
    (h : s.Portable limits zones) : s.toDict.Intact := by
  apply intact_fields s.plainNames
  simp only [fields, List.forall_mem_cons]
  refine ⟨.int _, .str h.digest, Objective.intact h.objective,
    RepositoryContext.intact h.repository,
    intact_dictOf fun k item hk => ?_, intact_dictOf fun k decision hk => ?_,
    intact_dictOf fun k r hk => ?_, intact_dictOf fun k record hk => ?_, intact_enum _,
    List.forall_mem_nil _⟩
  · obtain ⟨ht, hc⟩ := h.workItems k item hk
    obtain ⟨hk, ht⟩ := List.forall_mem_cons.1 ht
    exact ⟨hk, WorkItem.intact ht hc⟩
  · obtain ⟨hk, ht⟩ := List.forall_mem_cons.1 (h.routes k decision hk)
    exact ⟨hk, RouteDecision.intact ht⟩
  · obtain ⟨ht, hd, hc, hs⟩ := h.results k r hk
    obtain ⟨hk, ht⟩ := List.forall_mem_cons.1 ht
    exact ⟨hk, WorkResult.intact ht hd hc hs⟩
  · obtain ⟨hk, ht⟩ := List.forall_mem_cons.1 (h.approvals k record hk)
    exact ⟨hk, ApprovalRecord.intact ht⟩

end Intact

/-- Equality of states, where the order of a dictionary's entries does not count. -/
structure RunState.Equals (s s' : RunState) : Prop where
  schemaVersion : s.schemaVersion = s'.schemaVersion
  configurationDigest : s.configurationDigest = s'.configurationDigest
  objective : s.objective = s'.objective
  repository : s.repository = s'.repository
  workItems : ∀ k, s.workItems.get? k = s'.workItems.get? k
  routes : ∀ k, s.routes.get? k = s'.routes.get? k
  results : ∀ k, s.results.get? k = s'.results.get? k
  approvals : ∀ k, s.approvals.get? k = s'.approvals.get? k
  status : s.status = s'.status

structure Objective.Equals (flipped : Option Int) (o o' : Objective) : Prop where
  createdAt : o.createdAt.Equals flipped o'.createdAt
  rest : { o with createdAt := o'.createdAt } = o'

structure ApprovalRecord.Equals (flipped : Option Int) (r r' : ApprovalRecord) : Prop where
  approvedAt : r.approvedAt.Equals flipped r'.approvedAt
  rest : { r with approvedAt := r'.approvedAt } = r'

/-- Equality of a state in the given zones and a state that was read, where the order of a
dictionary's entries does not count. -/
structure RunState.EqualsIn (zones : TimeZones) (s s' : RunState) : Prop where
  schemaVersion : s.schemaVersion = s'.schemaVersion
  configurationDigest : s.configurationDigest = s'.configurationDigest
  objective : s.objective.Equals zones.createdAt s'.objective
  repository : s.repository = s'.repository
  workItems : ∀ k, s.workItems.get? k = s'.workItems.get? k
  routes : ∀ k, s.routes.get? k = s'.routes.get? k
  results : ∀ k, s.results.get? k = s'.results.get? k
  approvals : ∀ k, Option.Rel (ApprovalRecord.Equals (zones.approvedAt k)) (s.approvals.get? k)
    (s'.approvals.get? k)
  status : s.status = s'.status

/-- `RunState.from_dict(json.loads(json.dumps(state.to_dict())))`; what `json.dumps` writes,
`json.loads` reads. -/
def RunState.rereadState (limits : InterpreterLimits) (s : RunState) : Except PyError RunState :=
  match dumpsError limits s.toDict with
  | some e => .error e
  | none =>
    match s.toDict.reread with
    | .obj raw => fromDictWith (jsonValueWithin limits.keyCalls limits.calls) raw
    | _ => .error ⟨.other (text "TypeError"), []⟩

theorem RunState.equalsIn_sorted {limits : InterpreterLimits} {zones : TimeZones} {s : RunState}
    (h : s.Portable limits zones) : s.EqualsIn zones s.sorted where
  schemaVersion := rfl
  configurationDigest := rfl
  objective := ⟨DateTime.equals_self h.createdAt.symm, rfl⟩
  repository := rfl
  workItems k := (get?_sortedDict _ k).symm
  routes k := (get?_sortedDict _ k).symm
  results k := (get?_sortedDict _ k).symm
  approvals k := by
    have hg : s.sorted.approvals.get? k = s.approvals.get? k := get?_sortedDict _ k
    rw [hg]
    cases hk : s.approvals.get? k with
    | none => exact .none
    | some record => exact .some ⟨DateTime.equals_self (h.approvedAt k record hk).symm, rfl⟩
  status := rfl

/-- Decoding undoes encoding, through the JSON text. -/
theorem decoding_undoes_encoding {limits : InterpreterLimits} {zones : TimeZones} {s : RunState}
    (h : s.Portable limits zones) :
    ∃ s', s.rereadState limits = .ok s' ∧ s.EqualsIn zones s' := by
  refine ⟨s.sorted, ?_, RunState.equalsIn_sorted h⟩
  rw [RunState.rereadState, dumpsError_eq_none.2 ⟨h.digits, h.nesting⟩, h.intact.reread]
  apply s.fromDictWith_fields h.aware
  intro r hr j hj
  rw [jsonValueWithin_eq, if_pos (h.calls r hr j hj)]

/-- The zones of a state whose times all have a fixed offset. -/
def RunState.fixedZones (s : RunState) : TimeZones where
  createdAt := s.objective.createdAt.offset
  approvedAt k := (s.approvals.get? k).bind fun record => record.approvedAt.offset

/-- A prompt of two code points that are one after they were written and read. -/
def pairState : RunState :=
  { singleState (text "run") (text "a") with
    objective :=
      { (singleState (text "run") (text "a")).objective with prompt := [0xD83D, 0xDE00] } }

theorem surrogate_pair_joined : pairState.Aware ∧
    ¬∃ s', pairState.rereadState usualLimits = .ok s' ∧
      pairState.EqualsIn pairState.fixedZones s' := by
  refine ⟨⟨nofun, fun _ hm => absurd hm List.not_mem_nil⟩, ?_⟩
  rintro ⟨s', hs, he⟩
  have hp : ((pairState.rereadState usualLimits).toOption.map fun s => s.objective.prompt) =
      some [0x1F600] := by
    decide +kernel
  rw [hs] at hp
  have hp : s'.objective.prompt = [0x1F600] := Option.some.inj hp
  rw [← he.objective.rest] at hp
  cases hp

theorem folded_time_differs (s s' : RunState) (zones : TimeZones)
    (h : s.objective.createdAt.offset ≠ zones.createdAt) : ¬s.EqualsIn zones s' :=
  fun he => h he.objective.createdAt.1

/-- An integer of more digits than the limit is not printed. -/
theorem long_integer_refused {limits : InterpreterLimits} {s : RunState}
    (h : 10 ^ limits.digits ≤ s.schemaVersion.natAbs) :
    s.rereadState limits = .error ⟨.valueError, []⟩ := by
  rw [RunState.rereadState, dumpsError, if_pos]
  exact fun hp => absurd (hp s.schemaVersion List.mem_cons_self) (Nat.not_lt.2 h)

theorem deep_item_refused {limits : InterpreterLimits} {s : RunState}
    (hd : s.toDict.Printable limits.digits) (hn : limits.nesting < s.toDict.nesting) :
    s.rereadState limits = .error recursionError := by
  rw [RunState.rereadState, dumpsError, if_neg (not_not.2 hd), if_pos hn]

theorem joined_texts {ts : List Text} (h : ts.all (fun t => t.all isAscii) = true) :
    ∀ t ∈ ts, Joined t :=
  fun t ht => joined_of_ascii (List.all_eq_true.1 (List.all_eq_true.1 h t ht))

theorem singleState_portable : (singleState (text "run") (text "a")).Portable usualLimits
    (singleState (text "run") (text "a")).fixedZones where
  aware := ⟨nofun, fun _ hm => absurd hm List.not_mem_nil⟩
  createdAt := rfl
  approvedAt _ _ hk := by cases hk
  digest := joined_of_ascii (List.all_eq_true.1 (by decide +kernel))
  objective := joined_texts (by decide +kernel)
  repository := joined_texts (by decide +kernel)
  workItems k item hk := by
    have hm := List.mem_singleton.1 (Dict.mem_entries.2 hk)
    obtain ⟨rfl, rfl⟩ := Prod.mk.inj hm
    exact ⟨joined_texts (by decide +kernel), rfl⟩
  routes k decision hk := by
    have hm := List.mem_singleton.1 (Dict.mem_entries.2 hk)
    obtain ⟨rfl, rfl⟩ := Prod.mk.inj hm
    exact joined_texts (by decide +kernel)
  results _ _ hk := by cases hk
  approvals _ _ hk := by cases hk
  digits := by decide +kernel
  nesting := by decide +kernel
  calls _ hr := absurd hr List.not_mem_nil

theorem decoding_undoes_encoding_single : ∃ s',
    (singleState (text "run") (text "a")).rereadState usualLimits = .ok s' ∧
      (singleState (text "run") (text "a")).EqualsIn
        (singleState (text "run") (text "a")).fixedZones s' :=
  decoding_undoes_encoding singleState_portable

end GoalRouter
