import GoalRouter.OperationRefinement
import GoalRouter.ScriptedWorld

namespace GoalRouter
open Library
set_option autoImplicit true

/-- The id of the one item of a run that was created for an explicit task. -/
def taskId : Text := text "task"

/-- The item is classified as a writer exactly if its route may write. -/
def Aligned (item : WorkItem) (decision : RouteDecision) : Prop :=
  item.access = .workspaceWrite ↔ decision.sandbox = .workspaceWrite

/-- The run of an explicit task has one item with a route, aligned while it is unfinished. -/
def RunState.TaskAligned (s : RunState) : Prop :=
  ∃ item decision, s.workItems.get? taskId = some item ∧ s.routes.get? taskId = some decision ∧
    (s.isUnfinished taskId = true → Aligned item decision)

/-- The configuration gives the task of the unfinished item the side of the sandbox that its access
was derived from. -/
def RunState.KeepsSandbox (s : RunState) (config : RouterConfig) : Prop :=
  s.isUnfinished taskId = true → ∀ item policy, s.workItems.get? taskId = some item →
    config.tasks.get? item.task = some policy →
      (item.access = .workspaceWrite ↔ policy.sandbox = .workspaceWrite)

/-- The state that has just adopted a configuration. -/
def Event.adopted? : Event → Option RunState
  | .answered (.note (.adopted s)) _ => some s
  | _ => none

/-- Every configuration that was adopted keeps the sandbox of the state that adopted it; adoption
changes neither the items nor the results. -/
def SandboxKept (log : List Event) : Prop :=
  ∀ later e earlier s config, log = later ++ e :: earlier → e.adopted? = some s →
    currentConfig earlier = some config → s.KeepsSandbox config

namespace SandboxKept

theorem suffix {log log' : List Event} (h : SandboxKept log) (hs : log' <:+ log) :
    SandboxKept log' := by
  intro later e earlier s config hl
  obtain ⟨front, rfl⟩ := hs
  exact h (front ++ later) e earlier s config (by rw [hl, List.append_assoc])

theorem cons {log : List Event} (h : SandboxKept log)
    (he : ∀ s config, e.adopted? = some s → currentConfig log = some config →
      s.KeepsSandbox config) : SandboxKept (e :: log) := by
  intro later e' earlier s config hl
  rcases List.cons_eq_append_iff.1 hl with ⟨rfl, hl⟩ | ⟨later', rfl, hl⟩
  · obtain ⟨rfl, rfl⟩ := List.cons.inj hl
    exact he s config
  · exact h later' e' earlier s config (List.cons.inj hl).2

theorem cons_other {log : List Event} (h : SandboxKept log) (he : e.adopted? = none) :
    SandboxKept (e :: log) := by
  apply h.cons
  intro s config hs
  rw [he] at hs
  cases hs

theorem of_no_adoption {log : List Event} (h : ∀ e ∈ log, e.adopted? = none) :
    SandboxKept log := by
  intro later e earlier s config hl hs
  have hm : e ∈ log := by
    rw [hl]
    exact List.mem_append_right _ List.mem_cons_self
  rw [h e hm] at hs
  cases hs

end SandboxKept

variable {host : Host}

theorem selectTask_planned (h : selectTask host config none (some task) prompt paths =
    .ok (name, source, reason)) : name = task := by
  obtain ⟨_, _, h⟩ := bind_ok h
  cases h
  rfl

theorem route_sandbox (h : route host config item none = .ok decision) :
    ∃ policy, config.tasks.get? item.task = some policy ∧ decision.sandbox = policy.sandbox := by
  obtain ⟨⟨name, source, reason⟩, hselect, h⟩ := bind_ok h
  cases selectTask_planned hselect
  simp only at h
  cases hp : config.tasks.get? item.task with
  | none =>
    rw [hp] at h
    cases h
  | some policy =>
    rw [hp] at h
    obtain ⟨policy', hpure, h⟩ := bind_ok h
    cases hpure
    obtain ⟨original, _, h⟩ := bind_ok h
    obtain ⟨floor, _, h⟩ := bind_ok h
    split at h
    · cases h
      exact ⟨policy, rfl, rfl⟩
    · cases h

theorem explicitItem_aligned {app : Application host}
    (h : app.explicitItem task prompt paths = .ok (item, decision)) :
    item.id = taskId ∧ Aligned item decision := by
  obtain ⟨decision', _, h⟩ := bind_ok h
  cases h
  refine ⟨rfl, ?_⟩
  rw [Aligned]
  dsimp only
  split <;> simp [*]

namespace RunState.TaskAligned

variable {s s' : RunState}

theorem persisted (h : s.TaskAligned) : s.persisted.TaskAligned := by
  obtain ⟨item, decision, hi, hr, ha⟩ := h
  refine ⟨item.persisted, decision.persisted, ?_, ?_, ?_⟩
  · rw [RunState.persisted, get?_persistDict, hi, Option.map_some]
  · rw [RunState.persisted, get?_persistDict, hr, Option.map_some]
  · intro hu
    rw [isUnfinished_persisted] at hu
    exact ha hu

theorem withResult (h : s.TaskAligned) (ht : r.status.isResumable = false) :
    (s.withResult r).TaskAligned := by
  obtain ⟨item, decision, hi, hr, ha⟩ := h
  refine ⟨item, decision, hi, hr, fun hu => ha ?_⟩
  rw [isUnfinished_withResult] at hu
  split at hu
  · rw [ht] at hu
    cases hu
  · exact hu

end RunState.TaskAligned

theorem RunState.reroute_routed {entries : List (Text × WorkItem)} {s s' : RunState}
    (h : reroute host config s entries = .ok s') (hn : (entries.map Prod.fst).Nodup)
    (hm : (k, item) ∈ entries) (hu : s.isUnfinished k = true) :
    ∃ decision, route host config item none = .ok decision ∧ s'.routes.get? k = some decision := by
  induction entries generalizing s with
  | nil => cases hm
  | cons e entries ih =>
    obtain ⟨id, first⟩ := e
    obtain ⟨hid, hrest⟩ := List.nodup_cons.1 hn
    rw [reroute] at h
    split at h
    · obtain ⟨decision, hd, h'⟩ := bind_ok h
      rcases List.mem_cons.1 hm with hm | hm
      · cases hm
        refine ⟨decision, hd, ?_⟩
        rcases (reroute_ok h').2 k with hk | ⟨_, item', _, hm', _⟩
        · rw [hk, Dict.get?_set_self]
        · exact absurd (List.mem_map_of_mem hm') hid
      · exact ih h' hrest hm hu
    · rename_i hf
      rcases List.mem_cons.1 hm with hm | hm
      · cases hm
        exact absurd hu hf
      · exact ih h hrest hm hu

theorem RunState.adopted_route {s s' : RunState}
    (h : s.adoptCurrentConfiguration host config = .ok s') (hi : s.workItems.get? k = some item)
    (hu : s.isUnfinished k = true) :
    ∃ decision, route host config item none = .ok decision ∧ s'.routes.get? k = some decision := by
  rw [adoptCurrentConfiguration] at h
  cases hr : reroute host config s s.workItems.entries with
  | error e =>
    rw [hr] at h
    cases h
  | ok s₁ =>
    rw [hr] at h
    cases h
    have hrouted := reroute_routed hr s.workItems.nodup (Dict.mem_entries.2 hi) hu
    exact hrouted

/-- Adoption re-routes the unfinished item and leaves its access alone. -/
theorem RunState.TaskAligned.adopted_iff {s s' : RunState} (h : s.TaskAligned)
    (ha : s.adoptCurrentConfiguration host config = .ok s') :
    s'.TaskAligned ↔ s'.KeepsSandbox config := by
  obtain ⟨item, decision, hi, hr, hal⟩ := h
  obtain ⟨routes, rfl, hroutes⟩ := adoptCurrentConfiguration_ok ha
  by_cases hu : s.isUnfinished taskId = true
  · obtain ⟨decision', hd, hr'⟩ := adopted_route ha hi hu
    obtain ⟨policy, hp, hs⟩ := route_sandbox hd
    constructor
    · rintro ⟨item', decision'', hi', hr'', hal'⟩ hu' item'' policy' hi'' hp'
      have hi' : s.workItems.get? taskId = some item' := hi'
      have hi'' : s.workItems.get? taskId = some item'' := hi''
      have hr'' : routes.get? taskId = some decision'' := hr''
      rw [hi] at hi' hi''
      cases hi'
      cases hi''
      rw [hp] at hp'
      cases hp'
      have hr' : routes.get? taskId = some decision' := hr'
      rw [hr'] at hr''
      cases hr''
      rw [← hs]
      exact hal' hu'
    · intro hk
      refine ⟨item, decision', hi, hr', fun hu' => ?_⟩
      rw [Aligned, hs]
      exact hk hu' item policy hi hp
  · constructor
    · intro _ hu'
      exact absurd hu' hu
    · intro _
      rcases hroutes taskId with hk | ⟨hu', _⟩
      · exact ⟨item, decision, hi, hk.trans hr, fun hu' => absurd hu' hu⟩
      · exact absurd hu' hu

/-- In a run of an explicit task, as long as every adoption kept the sandbox. -/
def TaskGuarded (log : List Event) (s : RunState) : Prop :=
  SandboxKept log → s.objective.explicitTask ≠ none → s.TaskAligned

theorem TaskGuarded.cons (h : TaskGuarded log s) (e : Event) : TaskGuarded (e :: log) s :=
  fun hk => h (hk.suffix (List.suffix_cons e log))

theorem Fresh.taskAligned {app : Application host} (h : Fresh app s)
    (ho : s.objective.explicitTask ≠ none) : s.TaskAligned := by
  cases h with
  | planned _ _ _ hn _ => exact absurd hn ho
  | explicit he _ _ =>
    obtain ⟨hid, hal⟩ := explicitItem_aligned he
    have hget {α : Type} (a : α) : (Dict.ofList [(taskId, a)]).get? taskId = some a :=
      Dict.get?_set_self _ _ _
    rw [Application.initialState, hid]
    exact ⟨_, _, hget _, hget _, fun _ => hal⟩

theorem taskGuarded_invariant (host : Host) : ValidInvariant host TaskGuarded where
  event _ h := h.cons _
  landed _ h := h.cons _
  fresh _ hf _ _ ho := hf.taskAligned ho
  loaded hv h hl hk ho := by
    rw [hv.load hl] at ho ⊢
    exact (h hk fun hn => ho (Option.map_eq_none_iff.2 hn)).persisted
  approved _ _ _ _ h ha := by
    obtain ⟨_, _, _, _, _, _, _, _, _, _, rfl⟩ := approve_ok ha
    exact h.cons _
  adopted app hc _ h ha hk ho := by
    obtain ⟨_, hs, _⟩ := RunState.adoptCurrentConfiguration_ok ha
    have hlog := hk.suffix (List.suffix_cons _ _)
    have hold := h hlog (by rw [hs] at ho; exact ho)
    exact (hold.adopted_iff ha).2 (hk [] _ _ _ _ rfl rfl hc)
  blocked _ h _ hk ho := (h hk ho).withResult rfl
  finished _ h hf hk ho := by
    apply (h hk ho).withResult
    rcases hf.terminal with ht | ht <;> rw [ht] <;> rfl
  statusSet _ h _ := h
  concluded _ h _ _ := h
  appended _ _ _ _ hn _ _ _ _ ho := absurd hn ho

/-- As long as every configuration that is adopted keeps the sandbox of the unfinished task, every
state of a run of an explicit task, in memory or stored, has its item aligned with its route. -/
theorem task_access_aligned (h : Reachable host w) (hk : SandboxKept w.log) (hm : e ∈ w.log)
    (hs : e.state? = some s) (ho : s.objective.explicitTask ≠ none) : s.TaskAligned := by
  obtain ⟨m, hw⟩ := h.alive
  obtain ⟨later, earlier, hl⟩ := List.append_of_mem hm
  obtain ⟨_, log, hlog, hg⟩ := (taskGuarded_invariant host).at_event hw hl hs
  have hearlier : e :: earlier <:+ w.log := ⟨later, hl.symm⟩
  exact hg (hk.suffix (hlog.trans hearlier)) ho

section Adopting

variable {app : Application host} {s s' : RunState}

theorem loadRun_steps {w : World} (hid : isRunId w.runId = true)
    (hl : loadSync host w.runId w.dir = .ok s) (digest : Text) :
    Prog.Steps (Next host) (loadRun host w.runId (some digest) true) w (.pure s)
      (w.push (.load w.runId) (.ok s)) := by
  have hvalid : validateRunId host w.runId = .ok w.runId := if_pos hid
  have hnot : ¬(s.configurationDigest ≠ digest ∧ true = false) := fun h => Bool.noConfusion h.2
  rw [loadRun, hvalid]
  apply Prog.Steps.answer (.loaded rfl hl)
  simp only [if_neg hnot]
  exact .refl

theorem withRunLease_steps {body q : Program α} (hid : isRunId rid = true)
    (h : Prog.Steps (Next host) body (w.push (.acquireRun rid) (.ok ())) q w') :
    ∃ q', Prog.Steps (Next host) (withRunLease host rid body) w q' w' := by
  have hvalid : validateRunId host rid = .ok rid := if_pos hid
  rw [withRunLease, hvalid]
  exact ⟨_, .answer .acquireRun (h.attempt.bind _)⟩

theorem acknowledgeChange_steps {w : World} (hd : s.configurationDigest ≠ app.config.digest)
    (ha : s.adoptCurrentConfiguration host app.config = .ok s') :
    ∃ q, Prog.Steps (Next host) (app.acknowledgeChange s) w q
      (w.push (.note (.adopted s')) (.ok ())) := by
  rw [Application.acknowledgeChange, if_pos hd, ha]
  exact ⟨_, .answer .note .refl⟩

/-- The history up to where a resumed run has adopted the configuration. -/
def World.adopting (w : World) (config : RouterConfig) (s s' : RunState) : World :=
  (((w.begin config).push (.acquireRun w.runId) (.ok ())).push (.load w.runId) (.ok s)).push
    (.note (.adopted s')) (.ok ())

theorem SandboxKept.adopting {w : World} (h : SandboxKept w.log) (hk : s'.KeepsSandbox config) :
    SandboxKept (w.adopting config s s').log := by
  apply SandboxKept.cons
  · exact ((h.cons_other rfl).cons_other rfl).cons_other rfl
  · intro s'' config' he hc
    rw [← Option.some.inj he, ← Option.some.inj hc]
    exact hk

/-- A process may die right after it adopted its configuration. -/
theorem Reachable.adopting (h : Reachable host w) (hid : isRunId w.runId = true)
    (hl : loadSync host w.runId w.dir = .ok s) (hd : s.configurationDigest ≠ app.config.digest)
    (ha : s.adoptCurrentConfiguration host app.config = .ok s') :
    Reachable host (w.adopting app.config s s') := by
  have hload := loadRun_steps (w := (w.begin app.config).push (.acquireRun w.runId) (.ok ())) hid hl
    app.config.digest
  have hbody : ∃ q, Prog.Steps (Next host) (app.resumeUnlocked w.runId true)
      ((w.begin app.config).push (.acquireRun w.runId) (.ok ())) q
      (w.adopting app.config s s') := by
    obtain ⟨q, hadopt⟩ := acknowledgeChange_steps hd ha
    exact ⟨_, hload.seq (hadopt.bind _)⟩
  obtain ⟨q, hbody⟩ := hbody
  obtain ⟨q', hresume⟩ := withRunLease_steps hid hbody
  exact .session app (.resume w.runId true) h (hresume.bind _)

end Adopting

section Sample

def otherDigest : String := "e3b0c44298fc1c149afbf4c8996fb92427ae41e4649b934ca495991b7852b855"

/-- A configuration under another digest than the sample one. -/
def otherConfig (sandbox : SandboxMode) : RouterConfig :=
  { sampleConfig .automatic .automatic sandbox with digest := text otherDigest }

def otherApplication (sandbox : SandboxMode)
    (h : loadRouterConfig sampleHost samplePath (sampleYaml .automatic .automatic sandbox)
      (text otherDigest) = .ok (otherConfig sandbox)) : Application sampleHost :=
  ⟨⟨otherConfig sandbox, samplePath, _, _, h⟩, samplePath⟩

/-- The process dies before it appends its first event. -/
def dyingScript : Script :=
  { sampleScript singlePlan [] with
    dies := fun _ c => match c with
      | .appendEvent _ _ => true
      | _ => false }

/-- A run of the sample task that died before its first turn. -/
def diedWorld : World :=
  dyingScript.session plainApplication (.runTask samplePath (text "work") (text "Do it") [] none)
    sampleWorld

theorem diedWorld_reachable : Reachable sampleHost diedWorld :=
  dyingScript.session_reachable _ _ sampleWorld_reachable

def taskItem : WorkItem where
  id := text "task"
  title := text "Run work"
  instructions := text "Do it"
  task := text "work"
  phase := text "explicit"
  dependencies := []
  access := .readOnly
  affectedPaths := []
  expectedResult := text "The requested bounded task is complete."
  verification := []
  confidence := PyFloat.one
  riskFlags := ∅

def taskDecision : RouteDecision :=
  { singleDecision with
    approval := .automatic
    source := .explicit
    reason := text "explicit task 'work'" }

def taskState : RunState where
  schemaVersion := 1
  configurationDigest := text "digest"
  objective := ⟨text "run", text "Do it", samplePath, some (text "work"), samplePath,
    dyingScript.time⟩
  repository := dyingScript.repository
  workItems := Dict.ofList [(text "task", taskItem)]
  routes := Dict.ofList [(text "task", taskDecision)]
  results := ∅
  approvals := ∅
  status := .planned

theorem diedWorld_dir : diedWorld.dir = .snapshot (snapshotOf taskState) := by
  rfl

theorem taskState_load :
    loadSync sampleHost (text "run") diedWorld.dir = .ok taskState.persisted := by
  have hkey : PlainKey (text "task") := ⟨by decide, by decide +kernel⟩
  have hone {α : Type} {m : Dict Text α} (hm : m.keys = [text "task"]) (k : Text)
      (hk : k ∈ m.keys) : PlainKey k := by
    rw [hm, List.mem_singleton] at hk
    rw [hk]
    exact hkey
  have hkeys : taskState.PlainKeys :=
    ⟨hone rfl, hone rfl, fun _ hm => absurd hm List.not_mem_nil,
      fun _ hm => absurd hm List.not_mem_nil⟩
  rw [diedWorld_dir]
  exact loadSync_snapshotOf _ _ rfl ⟨nofun, fun _ hm => absurd hm List.not_mem_nil⟩ hkeys

theorem task_adopts (sandbox : SandboxMode)
    (h : loadRouterConfig sampleHost samplePath (sampleYaml .automatic .automatic sandbox)
      (text otherDigest) = .ok (otherConfig sandbox)) :
    ∃ s, taskState.persisted.adoptCurrentConfiguration sampleHost (otherConfig sandbox) = .ok s ∧
      Reachable sampleHost (diedWorld.adopting (otherConfig sandbox) taskState.persisted s) := by
  have hok : (taskState.persisted.adoptCurrentConfiguration sampleHost
      (otherConfig sandbox)).isOk = true := by
    cases sandbox <;> decide +kernel
  have hd : taskState.persisted.configurationDigest ≠ text otherDigest := by decide +kernel
  cases ha : taskState.persisted.adoptCurrentConfiguration sampleHost (otherConfig sandbox) with
  | error e =>
    rw [ha] at hok
    cases hok
  | ok s =>
    exact ⟨s, rfl, @Reachable.adopting _ (otherApplication sandbox h) _ _ _
      diedWorld_reachable (show isRunId (text "run") = true by decide) taskState_load hd ha⟩

/-- The other configuration keeps the sandbox exactly if it lets the task read only, too. -/
theorem task_keeps {s : RunState} (ha : taskState.persisted.adoptCurrentConfiguration sampleHost
    (otherConfig sandbox) = .ok s) :
    s.KeepsSandbox (otherConfig sandbox) ↔ sandbox = .readOnly := by
  obtain ⟨routes, rfl, _⟩ := RunState.adoptCurrentConfiguration_ok ha
  have hu : taskState.persisted.isUnfinished taskId = true := by decide +kernel
  have hi : taskState.persisted.workItems.get? taskId = some taskItem.persisted := rfl
  have hp : (otherConfig sandbox).tasks.get? taskItem.persisted.task =
      some (sampleTask (text "work") (text "Work") sandbox .automatic) := by
    cases sandbox <;> decide +kernel
  constructor
  · intro hk
    have hside := hk hu _ _ hi hp
    cases sandbox with
    | readOnly => rfl
    | workspaceWrite => exact absurd (hside.2 rfl) (by decide)
  · rintro rfl _ item policy hi' hp'
    have hi' : taskState.persisted.workItems.get? taskId = some item := hi'
    rw [hi] at hi'
    cases hi'
    rw [hp] at hp'
    cases hp'
    decide

theorem taskState_aligned : taskState.persisted.TaskAligned := by
  apply RunState.TaskAligned.persisted
  exact ⟨taskItem, taskDecision, rfl, rfl, fun _ => by rw [Aligned]; decide⟩

/-- A task that was read-only when its run was created, resumed under a configuration that lets it
write: its item still counts as a reader. -/
theorem rerouted_task_misaligned :
    ¬∀ (host : Host) (w : World), Reachable host w → ∀ e ∈ w.log, ∀ s : RunState,
      e.state? = some s → s.objective.explicitTask ≠ none → s.TaskAligned := by
  intro h
  obtain ⟨s, ha, hw⟩ := task_adopts .workspaceWrite (by decide +kernel)
  have ho : s.objective.explicitTask ≠ none := by
    obtain ⟨routes, rfl, _⟩ := RunState.adoptCurrentConfiguration_ok ha
    exact nofun
  have hal := h sampleHost _ hw _ List.mem_cons_self s rfl ho
  have hk := (task_keeps ha).1 ((taskState_aligned.adopted_iff ha).1 hal)
  cases hk

/-- The same run resumed under a configuration that changes nothing about the task. -/
theorem rerouted_task_aligned : ∃ s w, Reachable sampleHost w ∧
    .answered (.note (.adopted s)) (.ok ()) ∈ w.log ∧ s.TaskAligned := by
  obtain ⟨s, ha, hw⟩ := task_adopts .readOnly (by decide +kernel)
  have ho : s.objective.explicitTask ≠ none := by
    obtain ⟨routes, rfl, _⟩ := RunState.adoptCurrentConfiguration_ok ha
    exact nofun
  have hnone : diedWorld.log.all (fun e => e.adopted?.isNone) = true := by decide +kernel
  have hbefore : SandboxKept diedWorld.log :=
    .of_no_adoption fun e he => Option.isNone_iff_eq_none.1 (List.all_eq_true.1 hnone e he)
  have hkept := hbefore.adopting (s := taskState.persisted) ((task_keeps ha).2 rfl)
  exact ⟨s, _, hw, List.mem_cons_self, task_access_aligned hw hkept List.mem_cons_self rfl ho⟩

end Sample

end GoalRouter
