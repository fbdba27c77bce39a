import GoalRouter.Library.Walk
import GoalRouter.RouteFloors

namespace GoalRouter
open Library
set_option autoImplicit true

namespace RouterConfig

/-- The task that a configured task escalates to. -/
def escalation (config : RouterConfig) (task : Text) : Option Text :=
  (config.tasks.get? task).bind TaskPolicy.escalateTo

/-- Following `escalate-to` ends from every task, and no task escalates to itself in one step or
more. -/
def EscalationEnds (config : RouterConfig) : Prop :=
  (∀ task, ∃ n, walk config.escalation n task = none) ∧
    ∀ task, ¬Relation.TransGen (Leads config.escalation) task task

end RouterConfig

/-- The `tasks` table of a configuration file. -/
def rawTasks : Json → Fields
  | .obj raw => match lookup (text "tasks") raw with
    | some (.obj tasks) => tasks
    | _ => []
  | _ => []

/-- The `escalate-to` field of a task of the table. -/
def rawEscalation (tasks : Fields) (task : Text) : Option Text :=
  match (Dict.ofList tasks).get? task with
  | some (.obj fields) => match lookup (text "escalate-to") fields with
    | some (.str target) => some target
    | _ => none
  | _ => none

/-- From no task of the file can `escalate-to` be followed as many times as it has tasks. -/
def escalationsEnd (loaded : Json) : Bool :=
  (rawTasks loaded).all fun e =>
    (walk (rawEscalation (rawTasks loaded)) (rawTasks loaded).length e.1).isNone

section Parsing

variable {host : Host} {path : PurePath}

theorem parseTaskPolicy_escalateTo (h : parseTaskPolicy name raw = .ok policy) :
    ConfigField.optionalString raw (text "escalate-to") = .ok policy.escalateTo := by
  obtain ⟨_, _, h⟩ := bind_ok h
  obtain ⟨_, _, h⟩ := bind_ok h
  obtain ⟨_, _, h⟩ := bind_ok h
  obtain ⟨_, _, h⟩ := bind_ok h
  obtain ⟨_, _, h⟩ := bind_ok h
  obtain ⟨_, _, h⟩ := bind_ok h
  obtain ⟨_, _, h⟩ := bind_ok h
  obtain ⟨_, _, h⟩ := bind_ok h
  obtain ⟨escalateTo, he, h⟩ := bind_ok h
  cases h
  exact he

theorem optionalString_eq (h : ConfigField.optionalString fields name = .ok value) :
    value = match lookup name fields with
      | some (.str t) => some t
      | _ => none := by
  rw [ConfigField.optionalString] at h
  cases hl : lookup name fields with
  | none =>
    rw [hl] at h
    cases h
    rfl
  | some j =>
    rw [hl] at h
    cases j <;> cases h <;> rfl

theorem parseTable_rel (h : parseTable parse table context = .ok parsed) (name : Text) :
    Option.Rel (fun j a => ∃ name fields, j = .obj fields ∧ parse name fields = .ok a)
      ((Dict.ofList table).get? name) (parsed.get? name) := by
  obtain ⟨entries, hm, rfl⟩ := parseTable_ok h
  apply Dict.get?_ofList_rel
  apply (mapM_forall hm).imp
  intro e e' he
  obtain ⟨hname, fields, hj, hparse⟩ := parseEntry_ok he
  exact ⟨hname.symm, _, fields, hj, hparse⟩

theorem escalation_eq {tasks : Fields} {policies : Dict Text TaskPolicy}
    (h : parseTable parseTaskPolicy tasks context = .ok policies) :
    (fun task => (policies.get? task).bind TaskPolicy.escalateTo) = rawEscalation tasks := by
  funext task
  rw [rawEscalation]
  have hrel := parseTable_rel h task
  generalize (Dict.ofList tasks).get? task = j at hrel
  generalize policies.get? task = p at hrel
  cases hrel with
  | none => rfl
  | some ha =>
    obtain ⟨_, fields, rfl, hparse⟩ := ha
    exact optionalString_eq (parseTaskPolicy_escalateTo hparse)

theorem validateTask_escalation (h : validateTask host path aliases tasks e = .ok ())
    (hf : e.2 = .obj fields)
    (ht : ConfigField.optionalString fields (text "escalate-to") = .ok (some target)) :
    target ∈ tasks.map Prod.fst := by
  rw [validateTask, hf] at h
  obtain ⟨fields', hfields, h⟩ := bind_ok h
  cases hfields
  obtain ⟨_, _, h⟩ := bind_ok h
  split at h
  · cases h
  · dsimp only at h
    rw [ht, ok_bind] at h
    dsimp only at h
    split at h
    · cases h
    · rename_i hn
      obtain ⟨value, hv⟩ := Option.isSome_iff_exists.1 (Option.isNone_eq_false_iff.1
        (Bool.eq_false_iff.2 hn))
      exact List.mem_map_of_mem (mem_of_lookup hv)

theorem loadRouterConfig_tasks (h : loadRouterConfig host path loaded digest = .ok config) :
    parseTable parseTaskPolicy (rawTasks loaded) (text "tasks") = .ok config.tasks ∧
      ∃ aliases units, (rawTasks loaded).mapM
        (validateTask host path aliases (rawTasks loaded)) = .ok units := by
  obtain ⟨raw, hraw, h⟩ := bind_ok h
  obtain ⟨_, _, h⟩ := bind_ok h
  obtain ⟨_, hs, hp⟩ := bind_ok h
  obtain ⟨aliases, haliases, hs⟩ := bind_ok hs
  obtain ⟨tasks, htasks, hs⟩ := bind_ok hs
  obtain ⟨_, _, hs⟩ := bind_ok hs
  obtain ⟨_, _, hs⟩ := bind_ok hs
  obtain ⟨_, _, hs⟩ := bind_ok hs
  obtain ⟨_, _, hs⟩ := bind_ok hs
  obtain ⟨units, hcheck, hs⟩ := bind_ok hs
  have hloaded : loaded = .obj raw := by
    cases loaded <;> cases hraw
    rfl
  have hrawTasks : rawTasks loaded = tasks := by
    obtain ⟨j, hj, hobj⟩ := bind_ok htasks
    rw [ConfigField.field, Decoder.field] at hj
    rw [hloaded, rawTasks]
    cases hl : lookup (text "tasks") raw with
    | none =>
      rw [hl] at hj
      cases hj
    | some v =>
      rw [hl] at hj
      cases hj
      cases j <;> cases hobj
      rfl
  rw [hrawTasks]
  refine ⟨?_, aliases, units, hcheck⟩
  rw [parseRouterConfig, haliases, ok_bind, htasks, ok_bind] at hp
  obtain ⟨_, _, hp⟩ := bind_ok hp
  obtain ⟨policies, hpolicies, hp⟩ := bind_ok hp
  obtain ⟨_, _, hp⟩ := bind_ok hp
  obtain ⟨_, _, hp⟩ := bind_ok hp
  obtain ⟨_, _, hp⟩ := bind_ok hp
  obtain ⟨_, _, hp⟩ := bind_ok hp
  obtain ⟨_, _, hp⟩ := bind_ok hp
  obtain ⟨_, _, hp⟩ := bind_ok hp
  obtain ⟨_, _, hp⟩ := bind_ok hp
  obtain ⟨_, _, hp⟩ := bind_ok hp
  obtain ⟨_, _, hp⟩ := bind_ok hp
  obtain ⟨_, _, hp⟩ := bind_ok hp
  cases hp
  exact hpolicies

/-- Escalation in an accepted configuration is that of its file, and leads to tasks of the file. -/
theorem escalation_loaded (h : loadRouterConfig host path loaded digest = .ok config) :
    config.escalation = rawEscalation (rawTasks loaded) ∧
      ∀ a b, config.escalation a = some b → b ∈ (rawTasks loaded).map Prod.fst := by
  obtain ⟨hparse, aliases, units, hcheck⟩ := loadRouterConfig_tasks h
  refine ⟨escalation_eq hparse, fun a b hab => ?_⟩
  obtain ⟨policy, hpolicy, htarget⟩ := Option.bind_eq_some_iff.1 hab
  obtain ⟨entries, hm, he⟩ := parseTable_ok hparse
  rw [he] at hpolicy
  obtain ⟨e, hmem, hentry⟩ := mapM_ok_mem hm _ (Dict.mem_of_get?_ofList hpolicy)
  obtain ⟨_, fields, hf, hfields⟩ := parseEntry_ok hentry
  have hescalate := parseTaskPolicy_escalateTo hfields
  rw [htarget] at hescalate
  exact validateTask_escalation (mapM_checked hcheck hmem) hf hescalate

end Parsing

/-- Escalation ends in an accepted configuration exactly if it ends within its file. -/
theorem escalation_ends_iff {host : Host} {path : PurePath} {loaded : Json} {digest : Text}
    {config : RouterConfig} (h : loadRouterConfig host path loaded digest = .ok config) :
    config.EscalationEnds ↔ escalationsEnd loaded = true := by
  obtain ⟨heq, hclosed⟩ := escalation_loaded h
  have hacyclic := acyclic_iff_walks_end hclosed
  rw [List.forall_mem_map, List.length_map] at hacyclic
  have hraw : escalationsEnd loaded = true ↔
      ∀ e ∈ rawTasks loaded, walk config.escalation (rawTasks loaded).length e.1 = none := by
    rw [escalationsEnd, List.all_eq_true, heq]
    exact forall₂_congr fun _ _ => Option.isNone_iff_eq_none
  rw [hraw, ← hacyclic]
  constructor
  · exact fun hends => hends.2
  · intro hcycles
    refine ⟨fun task => ?_, hcycles⟩
    cases hnext : config.escalation task with
    | none => exact ⟨1, by rw [walk, hnext, Option.bind_none]⟩
    | some target =>
      obtain ⟨e, he, rfl⟩ := List.mem_map.1 (hclosed task target hnext)
      refine ⟨(rawTasks loaded).length + 1, ?_⟩
      rw [walk, hnext, Option.bind_some]
      exact hacyclic.1 hcycles e he

section Sample

/-- A configuration whose tasks escalate as listed. -/
def escalatingYaml (tasks : List (String × Option String)) : Json := .obj [
  (text "schema-version", .int 1),
  (text "default-task", .str (text "work")),
  (text "planner-task", .str (text "work")),
  (text "completion-task", .str (text "work")),
  (text "maximum-read-concurrency", .int 2),
  (text "repository-inspection-timeout-seconds", .int 60),
  (text "model-aliases", .obj [(text "base", .obj [(text "model", .str (text "model")),
    (text "reasoning-effort", .str (text "low")), (text "rank", .int 1)])]),
  (text "tasks", .obj (tasks.map fun task => (text task.1, .obj ([
    (text "description", .str (text "Work")),
    (text "model-alias", .str (text "base")),
    (text "sandbox", .str (text "read-only")),
    (text "approval", .str (text "automatic")),
    (text "timeout-seconds", .int 600),
    (text "max-attempts", .int 1)] ++
    task.2.toList.map fun target => (text "escalate-to", .str (text target))))))]

def chainYaml : Json :=
  escalatingYaml [("work", some "review"), ("review", some "audit"), ("audit", none)]

/-- Escalation from `work` over `review` ends at `audit`. -/
theorem escalation_ends_sample : ∃ config,
    loadRouterConfig sampleHost samplePath chainYaml (text "digest") = .ok config ∧
      config.escalation (text "work") = some (text "review") ∧
      config.escalation (text "review") = some (text "audit") ∧ config.EscalationEnds := by
  have hloaded : (loadRouterConfig sampleHost samplePath chainYaml (text "digest")).toOption.any
      (fun config => config.escalation (text "work") = some (text "review") ∧
        config.escalation (text "review") = some (text "audit")) = true := by decide +kernel
  obtain ⟨config, hconfig, hchain⟩ := (Option.any_eq_true _ _).1 hloaded
  have hc : loadRouterConfig sampleHost samplePath chainYaml (text "digest") = .ok config := by
    cases h : loadRouterConfig sampleHost samplePath chainYaml (text "digest") with
    | error e =>
      rw [h] at hconfig
      cases hconfig
    | ok config' =>
      rw [h] at hconfig
      cases hconfig
      rfl
  obtain ⟨hwork, hreview⟩ := of_decide_eq_true hchain
  exact ⟨config, hc, hwork, hreview, (escalation_ends_iff hc).2 (by decide +kernel)⟩

/-- A configuration whose one task escalates to itself. -/
def loopYaml : Json := escalatingYaml [("work", some "work")]

def loopConfig : RouterConfig where
  schemaVersion := 1
  defaultTask := text "work"
  plannerTask := text "work"
  completionTask := text "work"
  maximumReadConcurrency := 2
  repositoryInspectionTimeoutSeconds := 60
  modelAliases := Dict.ofList [(text "base", ⟨text "base", text "model", text "low", 1⟩)]
  tasks := Dict.ofList [(text "work",
    { sampleTask (text "work") (text "Work") .readOnly .automatic with
      escalateTo := some (text "work") })]
  matching := []
  hardRiskRules := []
  digest := text "digest"

/-- A task that escalates to itself is accepted. -/
theorem escalation_loop_accepted :
    ¬∀ (host : Host) (path : PurePath) (loaded : Json) (digest : Text) (config : RouterConfig),
      loadRouterConfig host path loaded digest = .ok config → config.EscalationEnds := by
  intro h
  have hloaded : loadRouterConfig sampleHost samplePath loopYaml (text "digest") =
      .ok loopConfig := by decide +kernel
  have hleads : Leads loopConfig.escalation (text "work") (text "work") := by decide +kernel
  exact (h _ _ _ _ _ hloaded).2 (text "work") (.single hleads)

end Sample

end GoalRouter
