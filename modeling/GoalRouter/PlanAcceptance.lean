import GoalRouter.PlannedGraph
import GoalRouter.ScriptedWorld

namespace GoalRouter
open Library
set_option autoImplicit true

/-- A work item in the response's own words. -/
structure StatedItem where
  id : Text
  title : Text
  instructions : Text
  task : Text
  phase : Text
  dependencies : List Text
  access : AccessMode
  affectedPaths : List Text
  expectedResult : Text
  verification : List Text
  confidence : PyFloat
  riskFlags : List Text

/-- The JSON number is that float, or an integer that the float stands for. -/
def IsNumber (x : PyFloat) : Json → Prop
  | .float y => y = x
  | .int n => PyFloat.ofInt n = some x
  | _ => False

namespace StatedItem

/-- The fields of an object say what the item says. -/
structure StatedBy (s : StatedItem) (raw : Fields) : Prop where
  id : lookup (text "id") raw = some (.str s.id)
  title : lookup (text "title") raw = some (.str s.title)
  instructions : lookup (text "instructions") raw = some (.str s.instructions)
  task : lookup (text "task") raw = some (.str s.task)
  phase : lookup (text "phase") raw = some (.str s.phase)
  dependencies : lookup (text "dependencies") raw = some (.arr (s.dependencies.map .str))
  access : lookup (text "access") raw = some (.str (StrEnum.value s.access))
  affectedPaths : lookup (text "affected-paths") raw = some (.arr (s.affectedPaths.map .str))
  expectedResult : lookup (text "expected-result") raw = some (.str s.expectedResult)
  verification : lookup (text "verification") raw = some (.arr (s.verification.map .str))
  confidence : ∃ j, lookup (text "confidence") raw = some j ∧ IsNumber s.confidence j
  riskFlags : lookup (text "risk-flags") raw = some (.arr (s.riskFlags.map .str))

/-- The work item made of it, with its paths relative to the project. -/
def planned (s : StatedItem) (paths : List PurePath) : WorkItem where
  id := s.id
  title := s.title
  instructions := s.instructions
  task := s.task
  phase := s.phase
  dependencies := s.dependencies
  access := s.access
  affectedPaths := paths
  expectedResult := s.expectedResult
  verification := s.verification
  confidence := s.confidence
  riskFlags := TextSet.ofTexts s.riskFlags

@[simp] theorem planned_id (s : StatedItem) (paths : List PurePath) : (s.planned paths).id = s.id :=
  rfl

@[simp] theorem planned_dependencies (s : StatedItem) (paths : List PurePath) :
    (s.planned paths).dependencies = s.dependencies := rfl

end StatedItem

/-- The objects of a response say what the items say, in that order. -/
def StatesPlan (raw : Fields) (stated : List StatedItem) : Prop :=
  ∃ values, lookup (text "work-items") raw = some (.arr values) ∧
    List.Forall₂ (fun value (s : StatedItem) => ∃ fields, value = .obj fields ∧ s.StatedBy fields)
      values stated

namespace PlannerSchema

theorem identifier_string {j : Json} (h : identifierSchema.accepts j = true) :
    ∃ t, j = .str t := by
  cases j <;> simp [identifierSchema, Schema.accepts, Schema.acceptsAll, JsonType.admits] at h
  exact ⟨_, rfl⟩

theorem nonEmptyString_string {j : Json} (h : nonEmptyString.accepts j = true) :
    ∃ t, j = .str t := by
  cases j <;> simp [nonEmptyString, Schema.accepts, Schema.acceptsAll, JsonType.admits] at h
  exact ⟨_, rfl⟩

theorem uniqueStrings_strings {item : Schema} {j : Json}
    (hi : ∀ j, item.accepts j = true → ∃ t, j = .str t)
    (h : (uniqueStrings item).accepts j = true) : ∃ ts : List Text, j = .arr (ts.map .str) := by
  rw [uniqueStrings, Schema.accepts, Schema.acceptsAll_iff] at h
  cases j with
  | arr xs =>
    have hitems := h (.items item) (by simp)
    rw [Schema.accepts, List.all_eq_true] at hitems
    have key (xs : List Json) (hx : ∀ x ∈ xs, item.accepts x = true) :
        ∃ ts : List Text, xs = ts.map .str := by
      induction xs with
      | nil => exact ⟨[], rfl⟩
      | cons x xs ih =>
        obtain ⟨t, rfl⟩ := hi x (hx x List.mem_cons_self)
        obtain ⟨ts, rfl⟩ := ih fun y hy => hx y (List.mem_cons_of_mem _ hy)
        exact ⟨t :: ts, rfl⟩
    obtain ⟨ts, rfl⟩ := key xs hitems
    exact ⟨ts, rfl⟩
  | _ =>
    have ht := h (.type .array) List.mem_cons_self
    cases ht

theorem confidence_number {j : Json}
    (h : (Schema.allOf [.type .number, .minimum 0, .maximum 1]).accepts j = true) :
    ∃ x, IsNumber x j := by
  rw [Schema.accepts, Schema.acceptsAll_iff] at h
  cases j with
  | float x => exact ⟨x, rfl⟩
  | int n =>
    have hmin := h (.minimum 0) (by simp)
    have hmax := h (.maximum 1) (by simp)
    simp only [Schema.accepts, Json.lessThan, Json.greaterThan, Bool.not_eq_true',
      decide_eq_false_iff_not] at hmin hmax
    obtain rfl | rfl : n = 0 ∨ n = 1 := by omega
    · exact ⟨.zero, (rfl : PyFloat.ofInt 0 = some .zero)⟩
    · exact ⟨.one, (by decide : PyFloat.ofInt 1 = some .one)⟩
  | _ =>
    have ht := h (.type .number) List.mem_cons_self
    cases ht

theorem access_mode {j : Json}
    (h : (Schema.enum [text "read-only", text "workspace-write"]).accepts j = true) :
    ∃ a : AccessMode, j = .str (StrEnum.value a) := by
  cases j with
  | str t =>
    rw [Schema.accepts] at h
    obtain rfl | rfl : t = text "read-only" ∨ t = text "workspace-write" := by simpa using h
    · exact ⟨.readOnly, rfl⟩
    · exact ⟨.workspaceWrite, rfl⟩
  | _ => cases h

/-- The properties of a work item, each of them required. -/
def workItemFields : List (Text × Schema) := [
  (text "id", identifierSchema),
  (text "title", nonEmptyString),
  (text "instructions", nonEmptyString),
  (text "task", identifierSchema),
  (text "phase", identifierSchema),
  (text "dependencies", uniqueStrings identifierSchema),
  (text "access", .enum [text "read-only", text "workspace-write"]),
  (text "affected-paths", uniqueStrings nonEmptyString),
  (text "expected-result", nonEmptyString),
  (text "verification", uniqueStrings nonEmptyString),
  (text "confidence", .allOf [.type .number, .minimum 0, .maximum 1]),
  (text "risk-flags", uniqueStrings identifierSchema)]

theorem workItem_field {raw : Fields} {name : Text} {s : Schema}
    (h : workItem.accepts (.obj raw) = true) (hs : (name, s) ∈ workItemFields) :
    ∃ v, lookup name raw = some v ∧ s.accepts v = true :=
  Schema.accepts_required h (List.mem_cons_of_mem _ (List.mem_cons_of_mem _ List.mem_cons_self))
    (List.mem_map_of_mem (f := Prod.fst) hs)
    (List.mem_cons_of_mem _ (List.mem_cons_of_mem _ (List.mem_cons_of_mem _ List.mem_cons_self)))
    hs

theorem workItem_stated {j : Json} (h : workItem.accepts j = true) :
    ∃ raw, j = .obj raw ∧ ∃ s : StatedItem, s.StatedBy raw := by
  have hobject : ∃ raw, j = .obj raw := by
    cases j with
    | obj raw => exact ⟨raw, rfl⟩
    | _ =>
      rw [workItem, Schema.accepts, Schema.acceptsAll_iff] at h
      have ht := h (.type .object) List.mem_cons_self
      cases ht
  obtain ⟨raw, rfl⟩ := hobject
  have identifier (name : Text) (hs : (name, identifierSchema) ∈ workItemFields) :
      ∃ t, lookup name raw = some (.str t) := by
    obtain ⟨v, hv, ha⟩ := workItem_field h hs
    obtain ⟨t, rfl⟩ := identifier_string ha
    exact ⟨t, hv⟩
  have words (name : Text) (hs : (name, nonEmptyString) ∈ workItemFields) :
      ∃ t, lookup name raw = some (.str t) := by
    obtain ⟨v, hv, ha⟩ := workItem_field h hs
    obtain ⟨t, rfl⟩ := nonEmptyString_string ha
    exact ⟨t, hv⟩
  have texts (name : Text) (item : Schema)
      (hi : ∀ j, item.accepts j = true → ∃ t, j = .str t)
      (hs : (name, uniqueStrings item) ∈ workItemFields) :
      ∃ ts : List Text, lookup name raw = some (.arr (ts.map .str)) := by
    obtain ⟨v, hv, ha⟩ := workItem_field h hs
    obtain ⟨ts, rfl⟩ := uniqueStrings_strings hi ha
    exact ⟨ts, hv⟩
  obtain ⟨id, hid⟩ := identifier (text "id") (by simp [workItemFields])
  obtain ⟨title, htitle⟩ := words (text "title") (by simp [workItemFields])
  obtain ⟨instructions, hinstructions⟩ := words (text "instructions") (by simp [workItemFields])
  obtain ⟨task, htask⟩ := identifier (text "task") (by simp [workItemFields])
  obtain ⟨phase, hphase⟩ := identifier (text "phase") (by simp [workItemFields])
  obtain ⟨dependencies, hdependencies⟩ :=
    texts (text "dependencies") identifierSchema (fun _ => identifier_string)
      (by simp [workItemFields])
  obtain ⟨_, haccess, ha⟩ := @workItem_field raw (text "access")
    (.enum [text "read-only", text "workspace-write"]) h (by simp [workItemFields])
  obtain ⟨access, rfl⟩ := access_mode ha
  obtain ⟨affectedPaths, hpaths⟩ :=
    texts (text "affected-paths") nonEmptyString (fun _ => nonEmptyString_string)
      (by simp [workItemFields])
  obtain ⟨expectedResult, hresult⟩ := words (text "expected-result") (by simp [workItemFields])
  obtain ⟨verification, hverification⟩ :=
    texts (text "verification") nonEmptyString (fun _ => nonEmptyString_string)
      (by simp [workItemFields])
  obtain ⟨number, hconfidence, hn⟩ := @workItem_field raw (text "confidence")
    (.allOf [.type .number, .minimum 0, .maximum 1]) h (by simp [workItemFields])
  obtain ⟨confidence, hnumber⟩ := confidence_number hn
  obtain ⟨riskFlags, hflags⟩ :=
    texts (text "risk-flags") identifierSchema (fun _ => identifier_string)
      (by simp [workItemFields])
  exact ⟨raw, rfl, ⟨id, title, instructions, task, phase, dependencies, access, affectedPaths,
      expectedResult, verification, confidence, riskFlags⟩,
    ⟨hid, htitle, hinstructions, htask, hphase, hdependencies, haccess, hpaths, hresult,
      hverification, ⟨number, hconfidence, hnumber⟩, hflags⟩⟩

end PlannerSchema

theorem stated_exists {raw : Fields}
    (ha : PlannerSchema.plannerOutput.accepts (.obj raw) = true) :
    ∃ stated, StatesPlan raw stated := by
  obtain ⟨v, hv, hs⟩ := Schema.accepts_required ha
    (List.mem_cons_of_mem _ (List.mem_cons_of_mem _ List.mem_cons_self)) List.mem_cons_self
    (List.mem_cons_of_mem _ (List.mem_cons_of_mem _ (List.mem_cons_of_mem _ List.mem_cons_self)))
    List.mem_cons_self
  rw [Schema.accepts, Schema.acceptsAll_iff] at hs
  cases v with
  | arr values =>
    have hitems := hs (.items PlannerSchema.workItem) (by simp)
    rw [Schema.accepts, List.all_eq_true] at hitems
    have key (values : List Json)
        (h : ∀ value ∈ values, PlannerSchema.workItem.accepts value = true) :
        ∃ stated, List.Forall₂
          (fun value (s : StatedItem) => ∃ fields, value = .obj fields ∧ s.StatedBy fields)
          values stated := by
      induction values with
      | nil => exact ⟨[], .nil⟩
      | cons value values ih =>
        obtain ⟨raw, rfl, s, hs⟩ := PlannerSchema.workItem_stated (h value List.mem_cons_self)
        obtain ⟨rest, hrest⟩ := ih fun v hv => h v (List.mem_cons_of_mem _ hv)
        exact ⟨s :: rest, .cons ⟨raw, rfl, hs⟩ hrest⟩
    obtain ⟨stated, h⟩ := key values hitems
    exact ⟨stated, values, hv, h⟩
  | _ =>
    have ht := hs (.type .array) List.mem_cons_self
    cases ht

section Acceptance

variable (host : Host) (config : RouterConfig) (project : PurePath)

/-- The path of the response leads inside the resolved project, to `place` below its root. -/
def LeadsInside (t : Text) (place : PurePath) : Prop :=
  ∃ root target, host.resolve project = .ok root ∧
    host.resolve (root.join (PurePath.ofText t)) = .ok target ∧
    target.relativeTo root = some place

/-- The item depends on the other, by what the response says. -/
def DependsOn (stated : List StatedItem) (a b : Text) : Prop :=
  ∃ s ∈ stated, s.id = a ∧ b ∈ s.dependencies

/-- All that is asked of a plan but for its cycles. -/
structure CheckedPlan (stated : List StatedItem) : Prop where
  distinct : (stated.map StatedItem.id).Nodup
  configured : ∀ s ∈ stated, config.tasks.contains s.task = true
  verified : ∀ s ∈ stated, s.access = .workspaceWrite → s.verification ≠ []
  inside : ∀ s ∈ stated, ∀ t ∈ s.affectedPaths, ∃ place, LeadsInside host project t place
  closed : ∀ s ∈ stated, ∀ d ∈ s.dependencies, d ∈ stated.map StatedItem.id

structure AcceptablePlan (stated : List StatedItem) : Prop
    extends CheckedPlan host config project stated where
  acyclic : ∀ k, ¬Relation.TransGen (DependsOn stated) k k

/-- The work item is the stated one, its paths relative to the project. -/
def IsPlanned (s : StatedItem) (item : WorkItem) : Prop :=
  ∃ paths, List.Forall₂ (LeadsInside host project) s.affectedPaths paths ∧
    item = s.planned paths

/-- What the loop does with one work item. -/
def StatedItem.check (s : StatedItem) (seen : List Text) : Except PyError WorkItem := do
  if s.id ∈ seen then
    .error (plannerOutputError (text "Planner returned duplicate work-item ID " ++ host.repr s.id))
  if !config.tasks.contains s.task then
    .error (plannerOutputError (text "Planner returned unknown task " ++ host.repr s.task))
  if s.access = .workspaceWrite && s.verification = [] then
    .error (plannerOutputError
      (text "Write-capable work item " ++ host.repr s.id ++ text " has no verification"))
  let paths ← s.affectedPaths.mapM (containedRelativePath host project)
  return s.planned paths

end Acceptance

variable {host : Host} {config : RouterConfig} {project : PurePath}

theorem joined_candidate (root : PurePath) (t : Text) :
    (if (PurePath.ofText t).isAbsolute then PurePath.ofText t
      else root.join (PurePath.ofText t)) = root.join (PurePath.ofText t) := by
  split
  · rename_i ha
    rw [PurePath.join, if_pos ha]
  · rfl

theorem resolvePath_ok_iff {path target : PurePath} :
    resolvePath host path = .ok target ↔ host.resolve path = .ok target := by
  rw [resolvePath]
  cases host.resolve path <;> simp

theorem containedRelativePath_ok_iff {t : Text} {place : PurePath} :
    containedRelativePath host project t = .ok place ↔ LeadsInside host project t place := by
  simp only [containedRelativePath, joined_candidate]
  constructor
  · intro h
    obtain ⟨root, hroot, h⟩ := bind_ok h
    obtain ⟨target, htarget, h⟩ := bind_ok h
    split at h <;> cases h
    rename_i hrelative
    exact ⟨root, target, resolvePath_ok_iff.1 hroot, resolvePath_ok_iff.1 htarget, hrelative⟩
  · intro ⟨root, target, hroot, htarget, hrelative⟩
    rw [resolvePath_ok_iff.2 hroot, ok_bind, resolvePath_ok_iff.2 htarget, ok_bind, hrelative]
    rfl

theorem IsNumber.read {x : PyFloat} {j : Json} (h : IsNumber x j) (context : Text) :
    plannerDecoder.plainNumber context j = .ok x := by
  cases j with
  | float y => exact congrArg Except.ok h
  | int n =>
    have hn : PyFloat.ofInt n = some x := h
    rw [Decoder.plainNumber, hn]
  | _ => exact absurd h id

open PlannerField

theorem required_ok {α : Type} {read : Text → Json → Except PyError α} {raw : Fields} {name : Text}
    {v : Json} {a : α} (h : lookup name raw = some v) (hr : read name v = .ok a) :
    plannerDecoder.required read raw name = .ok a := by
  rw [Decoder.required, Decoder.field, h]
  exact hr

theorem stringTuple_strings {raw : Fields} {name : Text} {ts : List Text}
    (h : lookup name raw = some (.arr (ts.map .str))) : stringTuple raw name = .ok ts := by
  have hm : ts.mapM (fun t => plainString name (.str t)) = .ok (ts.map id) := mapM_ok fun _ _ => rfl
  have hs : sequence raw name = .ok (ts.map .str) := required_ok h rfl
  rw [List.map_id] at hm
  rw [stringTuple, hs, ok_bind, List.mapM_map]
  exact hm

/-- On an object that says what a work item is, nothing but the loop's checks can fail. -/
theorem parseWorkItem_eq {s : StatedItem} {raw : Fields} (h : s.StatedBy raw) (seen : List Text)
    (index : Nat) : parseWorkItem host config project seen index (.obj raw) =
      s.check host config project seen := by
  have read {name t : Text} (hl : lookup name raw = some (.str t)) : string raw name = .ok t :=
    required_ok hl rfl
  obtain ⟨j, hj, hnumber⟩ := h.confidence
  have hconfidence : number raw (text "confidence") = .ok s.confidence :=
    required_ok hj (hnumber.read _)
  have haccess : ConfigField.enumOf AccessMode (StrEnum.value s.access) = .ok s.access := by
    rw [ConfigField.enumOf, StrEnum.ofValue?_value]
  have hpaths : sequence raw (text "affected-paths") = .ok (s.affectedPaths.map .str) :=
    required_ok h.affectedPaths rfl
  simp only [parseWorkItem, StatedItem.check, mapping, Decoder.mapping, ok_bind, read h.id,
    read h.title, read h.instructions, read h.task, read h.phase, read h.expectedResult,
    read h.access, haccess, hpaths, hconfidence, stringTuple_strings h.verification,
    stringTuple_strings h.dependencies, stringTuple_strings h.riskFlags, List.mapM_map]
  rfl

theorem mapM_ok_iff {α β : Type} {f : α → Except PyError β} {xs : List α} {ys : List β} :
    xs.mapM f = .ok ys ↔ List.Forall₂ (fun x y => f x = .ok y) xs ys := by
  induction xs generalizing ys with
  | nil =>
    rw [List.forall₂_nil_left_iff]
    exact ⟨fun h => by cases h; rfl, fun h => h ▸ rfl⟩
  | cons x xs ih =>
    rw [List.mapM_cons, List.forall₂_cons_left_iff]
    constructor
    · intro h
      obtain ⟨y, hy, h⟩ := bind_ok h
      obtain ⟨rest, hrest, h⟩ := bind_ok h
      cases h
      exact ⟨y, rest, hy, ih.1 hrest, rfl⟩
    · intro ⟨y, rest, hy, hrest, he⟩
      rw [hy, ok_bind, ih.2 hrest, he]
      rfl

theorem containedPaths_ok_iff {ts : List Text} {places : List PurePath} :
    ts.mapM (containedRelativePath host project) = .ok places ↔
      List.Forall₂ (LeadsInside host project) ts places := by
  simp only [mapM_ok_iff, containedRelativePath_ok_iff]

theorem StatedItem.check_ok_iff {s : StatedItem} {seen : List Text} {item : WorkItem} :
    s.check host config project seen = .ok item ↔
      s.id ∉ seen ∧ config.tasks.contains s.task = true ∧
        (s.access = .workspaceWrite → s.verification ≠ []) ∧ IsPlanned host project s item := by
  rw [check]
  by_cases hseen : s.id ∈ seen
  · rw [if_pos hseen]
    exact iff_of_false nofun fun h => h.1 hseen
  · rw [if_neg hseen]
    cases htask : config.tasks.contains s.task with
    | false => exact iff_of_false nofun fun h => nomatch h.2.1
    | true =>
      by_cases hw : (decide (s.access = .workspaceWrite) && decide (s.verification = [])) = true
      · obtain ⟨ha, hv⟩ : s.access = .workspaceWrite ∧ s.verification = [] := by simpa using hw
        simp only [hw]
        exact iff_of_false nofun fun h => h.2.2.1 ha hv
      · have hverified : s.access = .workspaceWrite → s.verification ≠ [] := by simpa using hw
        simp only [hw]
        constructor
        · intro h
          obtain ⟨paths, hpaths, h⟩ := bind_ok h
          cases h
          exact ⟨hseen, trivial, hverified, paths, containedPaths_ok_iff.1 hpaths, rfl⟩
        · intro ⟨_, _, _, paths, hpaths, he⟩
          have hm := containedPaths_ok_iff.2 hpaths
          show (s.affectedPaths.mapM (containedRelativePath host project) >>= _) = _
          rw [hm, he]
          rfl

/-- The loop over the work items accepts the fresh and sound ones. -/
theorem parseWorkItems_ok_iff {values : List Json} {stated : List StatedItem}
    (hstated : List.Forall₂
      (fun value (s : StatedItem) => ∃ fields, value = .obj fields ∧ s.StatedBy fields)
      values stated) {seen : List Text} {index : Nat} {items : List WorkItem} :
    parseWorkItems host config project seen index values = .ok items ↔
      (stated.map StatedItem.id).Nodup ∧ (∀ s ∈ stated, s.id ∉ seen) ∧
        (∀ s ∈ stated, config.tasks.contains s.task = true ∧
          (s.access = .workspaceWrite → s.verification ≠ [])) ∧
        List.Forall₂ (IsPlanned host project) stated items := by
  induction hstated generalizing seen index items with
  | nil =>
    rw [parseWorkItems, List.forall₂_nil_left_iff]
    constructor
    · intro h
      cases h
      simp
    · rintro ⟨_, _, _, h⟩
      rw [h]
  | @cons value s values stated hs _ ih =>
    obtain ⟨fields, rfl, hf⟩ := hs
    rw [parseWorkItems, parseWorkItem_eq hf, List.forall₂_cons_left_iff, List.map_cons,
      List.nodup_cons, List.forall_mem_cons, List.forall_mem_cons]
    have hid {item : WorkItem} (h : IsPlanned host project s item) : item.id = s.id := by
      obtain ⟨paths, _, rfl⟩ := h
      rfl
    constructor
    · intro h
      obtain ⟨item, hitem, h⟩ := bind_ok h
      obtain ⟨rest, hrest, h⟩ := bind_ok h
      cases h
      obtain ⟨hseen, htask, hverified, hplanned⟩ := StatedItem.check_ok_iff.1 hitem
      obtain ⟨hn, hfresh, hall, hr⟩ := ih.1 hrest
      rw [hid hplanned] at hfresh
      have hnot : s.id ∉ stated.map StatedItem.id := by
        intro hm
        obtain ⟨s', hs', he⟩ := List.mem_map.1 hm
        exact hfresh s' hs' (he ▸ List.mem_cons_self)
      exact ⟨⟨hnot, hn⟩, ⟨hseen, fun s' hs' hm => hfresh s' hs' (List.mem_cons_of_mem _ hm)⟩,
        ⟨⟨htask, hverified⟩, hall⟩, item, rest, hplanned, hr, rfl⟩
    · rintro ⟨⟨hnot, hn⟩, ⟨hseen, hfresh⟩, ⟨⟨htask, hverified⟩, hall⟩, item, rest, hplanned, hr, he⟩
      have hrest : parseWorkItems host config project (item.id :: seen) (index + 1) values =
          .ok rest := by
        refine ih.2 ⟨hn, fun s' hs' hm => ?_, hall, hr⟩
        rw [hid hplanned] at hm
        rcases List.mem_cons.1 hm with hm | hm
        · exact hnot (hm ▸ List.mem_map_of_mem hs')
        · exact hfresh s' hs' hm
      rw [StatedItem.check_ok_iff.2 ⟨hseen, htask, hverified, hplanned⟩, ok_bind, hrest, he]
      rfl

theorem rejectMissing_ok_iff {ids : List Text} {item : WorkItem} :
    rejectMissing host ids item = .ok () ↔ ∀ d ∈ item.dependencies, d ∈ ids := by
  rw [rejectMissing]
  split
  · rename_i h
    rw [List.find?_eq_none] at h
    exact iff_of_true rfl fun d hd => by simpa using h d hd
  · rename_i d h
    refine iff_of_false (fun he => by cases he) fun hall => ?_
    have hn := List.find?_some h
    exact absurd (hall d (List.mem_of_find?_eq_some h)) (by simpa using hn)

/-- Below a chain that does not turn back, the walk has room and returns. -/
theorem visit_returns {table : Dict Text (List Text)} {ids : List Text}
    (hget : ∀ k ∈ ids, ∃ deps, table.get? k = some deps)
    (hclosed : ∀ k ∈ ids, ∀ d ∈ below table k, d ∈ ids)
    (hacyclic : ∀ k, ¬Relation.TransGen (fun a b => b ∈ below table a) k k)
    {depth : Nat} {visiting visited : List Text} {id : Text} (hid : id ∈ ids)
    (hn : visiting.Nodup) (hsub : ∀ k ∈ visiting, k ∈ ids)
    (hchain : ∀ k ∈ visiting, Relation.TransGen (fun a b => b ∈ below table a) k id)
    (hroom : ids.length < depth + visiting.length) :
    ∃ after, visit host table depth visiting visited id = .ok after := by
  induction depth generalizing visiting visited id with
  | zero =>
    have hle : visiting.length ≤ ids.length := (hn.subperm hsub).length_le
    omega
  | succ depth ih =>
    have hnot : id ∉ visiting := fun hm => hacyclic id (hchain id hm)
    rw [visit, if_neg hnot]
    by_cases hdone : id ∈ visited
    · rw [if_pos hdone]
      exact ⟨visited, rfl⟩
    · rw [if_neg hdone]
      obtain ⟨deps, hdeps⟩ := hget id hid
      have hbelow : below table id = deps := by
        rw [below, hdeps]
        rfl
      have hstep (d : Text) (hd : d ∈ deps) (before : List Text) :
          ∃ after, visit host table depth (id :: visiting) before d = .ok after := by
        rw [← hbelow] at hd
        apply ih (hclosed id hid d hd) (List.nodup_cons.2 ⟨hnot, hn⟩)
        · exact List.forall_mem_cons.2 ⟨hid, hsub⟩
        · exact List.forall_mem_cons.2 ⟨.single hd, fun k hk => (hchain k hk).tail hd⟩
        · rw [List.length_cons]
          omega
      have hfold (ds : List Text) (hds : ∀ d ∈ ds, d ∈ deps) (before : List Text) :
          ∃ after, ds.foldlM (visit host table depth (id :: visiting)) before = .ok after := by
        induction ds generalizing before with
        | nil => exact ⟨before, rfl⟩
        | cons d ds ihd =>
          obtain ⟨middle, hm⟩ := hstep d (hds d List.mem_cons_self) before
          obtain ⟨after, ha⟩ := ihd (fun d hd => hds d (List.mem_cons_of_mem _ hd)) middle
          exact ⟨after, by rw [List.foldlM_cons, hm, ok_bind, ha]⟩
      obtain ⟨after, ha⟩ := hfold deps (fun _ hd => hd) visited
      refine ⟨id :: after, ?_⟩
      simp only [hdeps]
      show (deps.foldlM (visit host table depth (id :: visiting)) visited >>= _) = _
      rw [ha]
      rfl

theorem mem_below_dependencyTable {items : List WorkItem} (hn : (items.map WorkItem.id).Nodup)
    {a b : Text} : b ∈ below (dependencyTable items) a ↔
      ∃ item ∈ items, item.id = a ∧ b ∈ item.dependencies := by
  constructor
  · intro h
    rw [below] at h
    cases hg : (dependencyTable items).get? a with
    | none =>
      rw [hg] at h
      cases h
    | some deps =>
      rw [hg] at h
      obtain ⟨item, hi, he⟩ := List.mem_map.1 (Dict.mem_of_get?_ofList hg)
      cases he
      exact ⟨item, hi, rfl, h⟩
  · rintro ⟨item, hi, ha, hb⟩
    rw [← ha, below_dependencyTable hn hi]
    exact hb

theorem dependencyTable_get? {items : List WorkItem} (k : Text) (hk : k ∈ items.map WorkItem.id) :
    ∃ deps, (dependencyTable items).get? k = some deps := by
  obtain ⟨item, hi, rfl⟩ := List.mem_map.1 hk
  have hm : item.id ∈ (dependencyTable items).keys :=
    Dict.mem_keys_ofList (List.mem_map_of_mem (f := fun i => (i.id, i.dependencies)) hi)
  exact Dict.mem_keys.1 hm

/-- On distinct items that depend on one another only, the walk raises exactly on a cycle. -/
theorem rejectCycles_ok_iff {items : List WorkItem} (hn : (items.map WorkItem.id).Nodup)
    (hclosed : ∀ item ∈ items, ∀ d ∈ item.dependencies, d ∈ items.map WorkItem.id) :
    (∃ order, rejectCycles host items = .ok order) ↔
      ∀ k, ¬Relation.TransGen (fun a b => b ∈ below (dependencyTable items) a) k k := by
  constructor
  · intro ⟨order, h⟩ k hk
    obtain ⟨ho, hnodup, hall⟩ := rejectCycles_ok h
    obtain ⟨d, hd, _⟩ := Relation.TransGen.head'_iff.1 hk
    obtain ⟨item, hi, rfl, _⟩ := (mem_below_dependencyTable hn).1 hd
    exact ho.acyclic hnodup (hall item hi) hk
  · intro hacyclic
    have hstep (k : Text) (hk : k ∈ items.map WorkItem.id) (before : List Text) :
        ∃ after, visit host (dependencyTable items) (items.length + 1) [] before k = .ok after := by
      apply visit_returns _ _ hacyclic hk .nil
      · exact fun _ h => absurd h List.not_mem_nil
      · exact fun _ h => absurd h List.not_mem_nil
      · rw [List.length_map, List.length_nil]
        omega
      · exact dependencyTable_get?
      · intro j _ d hd
        obtain ⟨item, hi, _, hd⟩ := (mem_below_dependencyTable hn).1 hd
        exact hclosed item hi d hd
    have hfold (ks : List Text) (hks : ∀ k ∈ ks, k ∈ items.map WorkItem.id) (before : List Text) :
        ∃ after, ks.foldlM (visit host (dependencyTable items) (items.length + 1) []) before =
          .ok after := by
      induction ks generalizing before with
      | nil => exact ⟨before, rfl⟩
      | cons k ks ih =>
        obtain ⟨middle, hm⟩ := hstep k (hks k List.mem_cons_self) before
        obtain ⟨after, ha⟩ := ih (fun j hj => hks j (List.mem_cons_of_mem _ hj)) middle
        exact ⟨after, by rw [List.foldlM_cons, hm, ok_bind, ha]⟩
    exact hfold _ (fun _ hk => hk) []

theorem planned_edges {stated : List StatedItem} {items : List WorkItem}
    (h : List.Forall₂ (IsPlanned host project) stated items) :
    items.map (fun item => (item.id, item.dependencies)) =
      stated.map fun s => (s.id, s.dependencies) := by
  induction h with
  | nil => rfl
  | cons hs _ ih =>
    obtain ⟨paths, _, rfl⟩ := hs
    rw [List.map_cons, List.map_cons, ih, StatedItem.planned_id, StatedItem.planned_dependencies]

theorem planned_ids {stated : List StatedItem} {items : List WorkItem}
    (h : List.Forall₂ (IsPlanned host project) stated items) :
    items.map WorkItem.id = stated.map StatedItem.id := by
  have he := congrArg (List.map Prod.fst) (planned_edges h)
  rw [List.map_map, List.map_map] at he
  exact he

theorem planned_dependsOn {stated : List StatedItem} {items : List WorkItem}
    (h : List.Forall₂ (IsPlanned host project) stated items)
    (hn : (stated.map StatedItem.id).Nodup) :
    (fun a b => b ∈ below (dependencyTable items) a) = DependsOn stated := by
  have hiff (a b : Text) : (∃ item ∈ items, item.id = a ∧ b ∈ item.dependencies) ↔
      ∃ deps, (a, deps) ∈ items.map (fun item => (item.id, item.dependencies)) ∧ b ∈ deps := by
    constructor
    · intro ⟨item, hi, ha, hb⟩
      exact ⟨item.dependencies, List.mem_map.2 ⟨item, hi, by rw [ha]⟩, hb⟩
    · intro ⟨deps, hm, hb⟩
      obtain ⟨item, hi, he⟩ := List.mem_map.1 hm
      cases he
      exact ⟨item, hi, rfl, hb⟩
  funext a b
  rw [mem_below_dependencyTable (planned_ids h ▸ hn), hiff, planned_edges h]
  apply propext
  constructor
  · intro ⟨deps, hm, hb⟩
    obtain ⟨s, hs, he⟩ := List.mem_map.1 hm
    cases he
    exact ⟨s, hs, rfl, hb⟩
  · intro ⟨s, hs, ha, hb⟩
    exact ⟨s.dependencies, List.mem_map.2 ⟨s, hs, by rw [ha]⟩, hb⟩

theorem planned_inside {stated : List StatedItem} {items : List WorkItem}
    (h : List.Forall₂ (IsPlanned host project) stated items) :
    ∀ s ∈ stated, ∀ t ∈ s.affectedPaths, ∃ place, LeadsInside host project t place := by
  have hpaths {ts : List Text} {places : List PurePath}
      (h : List.Forall₂ (LeadsInside host project) ts places) :
      ∀ t ∈ ts, ∃ place, LeadsInside host project t place := by
    induction h with
    | nil => exact fun t ht => absurd ht List.not_mem_nil
    | cons ht _ ih => exact List.forall_mem_cons.2 ⟨⟨_, ht⟩, ih⟩
  induction h with
  | nil => exact fun s hs => absurd hs List.not_mem_nil
  | cons hs _ ih =>
    obtain ⟨paths, hp, _⟩ := hs
    exact List.forall_mem_cons.2 ⟨hpaths hp, ih⟩

theorem places_exist {ts : List Text} (h : ∀ t ∈ ts, ∃ place, LeadsInside host project t place) :
    ∃ places, List.Forall₂ (LeadsInside host project) ts places := by
  induction ts with
  | nil => exact ⟨[], .nil⟩
  | cons t ts ih =>
    obtain ⟨⟨place, hp⟩, hr⟩ := List.forall_mem_cons.1 h
    obtain ⟨places, hps⟩ := ih hr
    exact ⟨place :: places, .cons hp hps⟩

theorem planned_exists {stated : List StatedItem}
    (h : ∀ s ∈ stated, ∀ t ∈ s.affectedPaths, ∃ place, LeadsInside host project t place) :
    ∃ items, List.Forall₂ (IsPlanned host project) stated items := by
  induction stated with
  | nil => exact ⟨[], .nil⟩
  | cons s stated ih =>
    obtain ⟨hs, hr⟩ := List.forall_mem_cons.1 h
    obtain ⟨paths, hp⟩ := places_exist hs
    obtain ⟨items, hi⟩ := ih hr
    exact ⟨s.planned paths :: items, .cons ⟨paths, hp, rfl⟩ hi⟩

theorem rejectMissing_all_iff {items : List WorkItem} {ids : List Text} :
    (∃ us, items.mapM (rejectMissing host ids) = .ok us) ↔
      ∀ item ∈ items, ∀ d ∈ item.dependencies, d ∈ ids := by
  simp only [← @rejectMissing_ok_iff host]
  constructor
  · intro ⟨us, h⟩ item hi
    by_contra hn
    cases he : rejectMissing host ids item with
    | ok u => exact hn he
    | error e =>
      obtain ⟨e', he'⟩ := mapM_error hi he
      rw [he'] at h
      cases h
  · intro h
    exact ⟨_, mapM_ok (g := fun _ => ()) h⟩

theorem planned_closed_iff {stated : List StatedItem} {items : List WorkItem}
    (h : List.Forall₂ (IsPlanned host project) stated items) :
    (∀ item ∈ items, ∀ d ∈ item.dependencies, d ∈ items.map WorkItem.id) ↔
      ∀ s ∈ stated, ∀ d ∈ s.dependencies, d ∈ stated.map StatedItem.id := by
  have he := congrArg (fun l : List (Text × List Text) =>
    ∀ e ∈ l, ∀ d ∈ e.2, d ∈ stated.map StatedItem.id) (planned_edges h)
  rw [planned_ids h]
  simpa only [List.forall_mem_map, eq_iff_iff] using he

theorem parseSemanticWorkItems_ok_iff {raw : Fields} {stated : List StatedItem}
    (hs : StatesPlan raw stated) {items : List WorkItem} :
    parseSemanticWorkItems host config project raw = .ok items ↔
      AcceptablePlan host config project stated ∧
        List.Forall₂ (IsPlanned host project) stated items := by
  obtain ⟨values, hvalues, hstated⟩ := hs
  have hread : sequence raw (text "work-items") = .ok values := required_ok hvalues rfl
  rw [parseSemanticWorkItems, hread, ok_bind]
  constructor
  · intro h
    obtain ⟨parsed, hparsed, h⟩ := bind_ok h
    obtain ⟨us, hmissing, h⟩ := bind_ok h
    obtain ⟨order, horder, h⟩ := bind_ok h
    cases h
    obtain ⟨hn, _, hall, hp⟩ := (parseWorkItems_ok_iff hstated).1 hparsed
    have hc := rejectMissing_all_iff.1 ⟨us, hmissing⟩
    have hacyclic := (rejectCycles_ok_iff (planned_ids hp ▸ hn) hc).1 ⟨order, horder⟩
    rw [planned_dependsOn hp hn] at hacyclic
    exact ⟨⟨⟨hn, fun s hs => (hall s hs).1, fun s hs => (hall s hs).2, planned_inside hp,
      (planned_closed_iff hp).1 hc⟩, hacyclic⟩, hp⟩
  · rintro ⟨ha, hp⟩
    have hparsed : parseWorkItems host config project [] 0 values = .ok items :=
      (parseWorkItems_ok_iff hstated).2 ⟨ha.distinct, fun _ _ => List.not_mem_nil,
        fun s hs => ⟨ha.configured s hs, ha.verified s hs⟩, hp⟩
    have hc := (planned_closed_iff hp).2 ha.closed
    obtain ⟨us, hmissing⟩ := (rejectMissing_all_iff).2 hc
    have hacyclic := ha.acyclic
    rw [← planned_dependsOn hp ha.distinct] at hacyclic
    obtain ⟨order, horder⟩ :=
      (rejectCycles_ok_iff (planned_ids hp ▸ ha.distinct) hc).2 hacyclic
    rw [hparsed, ok_bind, hmissing, ok_bind, horder]
    rfl

/-- A response that the schema accepts is parsed into work items, in its order and with every
field kept, or refused, by whether the plan is acceptable. -/
theorem plan_parsed_iff (host : Host) (config : RouterConfig) (project : PurePath) (raw : Fields)
    (ha : PlannerSchema.plannerOutput.accepts (.obj raw) = true) :
    ∃ stated, StatesPlan raw stated ∧
      ((∃ items, parseSemanticWorkItems host config project raw = .ok items) ↔
        AcceptablePlan host config project stated) ∧
      ((∃ e, parseSemanticWorkItems host config project raw = .error e) ↔
        ¬AcceptablePlan host config project stated) ∧
      ∀ items, parseSemanticWorkItems host config project raw = .ok items →
        List.Forall₂ (IsPlanned host project) stated items := by
  obtain ⟨stated, hs⟩ := stated_exists ha
  have hiff : (∃ items, parseSemanticWorkItems host config project raw = .ok items) ↔
      AcceptablePlan host config project stated := by
    constructor
    · intro ⟨items, h⟩
      exact ((parseSemanticWorkItems_ok_iff hs).1 h).1
    · intro h
      obtain ⟨items, hp⟩ := planned_exists h.inside
      exact ⟨items, (parseSemanticWorkItems_ok_iff hs).2 ⟨h, hp⟩⟩
  refine ⟨stated, hs, hiff, ?_, fun items h => ((parseSemanticWorkItems_ok_iff hs).1 h).2⟩
  rw [← hiff]
  cases parseSemanticWorkItems host config project raw <;> simp

/-- Two items that write, one of them after the other. -/
def samplePlanFields : Fields := [(text "work-items",
  .arr [sampleItem "a" "workspace-write" [], sampleItem "b" "workspace-write" ["a"]])]

theorem samplePlan_parsed : ∃ stated, StatesPlan samplePlanFields stated ∧
    ((∃ items, parseSemanticWorkItems sampleHost
      (sampleConfig .automatic .automatic .workspaceWrite)
        samplePath samplePlanFields = .ok items) ↔
      AcceptablePlan sampleHost (sampleConfig .automatic .automatic .workspaceWrite) samplePath
        stated) := by
  have ha : PlannerSchema.plannerOutput.accepts (.obj samplePlanFields) = true := by decide +kernel
  obtain ⟨stated, hs, hiff, _⟩ := plan_parsed_iff sampleHost
    (sampleConfig .automatic .automatic .workspaceWrite) samplePath samplePlanFields ha
  exact ⟨stated, hs, hiff⟩

example : (parseSemanticWorkItems sampleHost (sampleConfig .automatic .automatic .workspaceWrite)
    samplePath samplePlanFields).map (List.map WorkItem.id) = .ok [text "a", text "b"] := by
  decide +kernel

end GoalRouter
