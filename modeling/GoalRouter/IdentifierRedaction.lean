import GoalRouter.StateValidity
import GoalRouter.ScriptedWorld

namespace GoalRouter
open Library
set_option autoImplicit true

/-- A state as the application builds it, its identifiers still those of the plan. -/
structure RunState.Buildable (s : RunState) : Prop where
  version : s.schemaVersion = 1
  aware : s.Aware
  runId : isRunId s.runId = true
  ids : ∀ k ∈ s.workItems.keys, ItemId k
  keyed : ∀ k item, s.workItems.get? k = some item → item.id = k
  dependencies : ∀ k item, s.workItems.get? k = some item →
    ∀ d ∈ item.dependencies, d ∈ s.workItems.keys
  routes : ∀ k ∈ s.routes.keys, k ∈ s.workItems.keys
  results : ∀ k ∈ s.results.keys, k ∈ s.workItems.keys
  approvals : ∀ k ∈ s.approvals.keys, k ∈ s.workItems.keys

/-- What a resumed run needs of a state is in another as well. -/
structure RunState.GraphKept (s s' : RunState) : Prop where
  runId : s'.runId = s.runId
  workItems : ∀ k, k ∈ s'.workItems.keys ↔ k ∈ s.workItems.keys
  routes : ∀ k, k ∈ s'.routes.keys ↔ k ∈ s.routes.keys
  results : ∀ k, k ∈ s'.results.keys ↔ k ∈ s.results.keys
  approvals : ∀ k, k ∈ s'.approvals.keys ↔ k ∈ s.approvals.keys
  ids : ∀ k item, s'.workItems.get? k = some item → item.id = k
  dependencies : ∀ k item item', s.workItems.get? k = some item →
    s'.workItems.get? k = some item' → item'.dependencies = item.dependencies

/-- A load right after a create or a save of the state gives its graph back. -/
def RunState.Survives (host : Host) (s : RunState) : Prop :=
  ∀ dir dir', createSync s dir = .ok dir' ∨ saveSync s dir = .ok dir' →
    ∃ s', loadSync host s.runId dir' = .ok s' ∧ s.GraphKept s'

theorem written_snapshot {s : RunState}
    (h : createSync s dir = .ok dir' ∨ saveSync s dir = .ok dir') :
    dir' = .snapshot (snapshotOf s) := by
  rcases h with h | h
  · cases dir with
    | absent =>
      cases h
      rfl
    | empty => cases h
    | snapshot content => cases h
  · cases dir with
    | absent => cases h
    | empty =>
      cases h
      rfl
    | snapshot content =>
      cases h
      rfl

theorem survives_iff_load {s : RunState} : s.Survives host ↔
    ∃ s', loadSync host s.runId (.snapshot (snapshotOf s)) = .ok s' ∧ s.GraphKept s' := by
  constructor
  · intro h
    exact h .absent _ (.inl rfl)
  · intro h dir dir' hw
    rw [written_snapshot hw]
    exact h

theorem runId_ascii (h : isRunId t = true) : ∀ c ∈ t, isAscii c = true := by
  have hstart (c : CodePoint) (hc : runIdStart c = true) : isAscii c = true := by
    simp only [runIdStart, lowerAlphanumeric, Bool.or_eq_true, Bool.and_eq_true,
      decide_eq_true_eq] at hc
    simp only [isAscii, decide_eq_true_eq]
    omega
  cases t with
  | nil => cases h
  | cons c t =>
    obtain ⟨hc, ht⟩ := Bool.and_eq_true_iff.1 h
    intro d hd
    rcases List.mem_cons.1 hd with rfl | hd
    · exact hstart _ hc
    · have hr := List.all_eq_true.1 ht d hd
      rw [runIdRest, Bool.or_eq_true, decide_eq_true_eq] at hr
      rcases hr with hr | hr
      · exact hstart _ hr
      · exact List.all_eq_true.1 (by decide : (text "._-").all isAscii = true) d hr

theorem runId_ne_redacted (h : isRunId t = true) : t ≠ redacted := by
  rintro rfl
  exact absurd h (by decide)

namespace RunState.Buildable

variable {s : RunState}

theorem plainKeys (h : s.Buildable) (hs : ∀ k ∈ s.workItems.keys, isSecretKey k = false) :
    s.PlainKeys := by
  have hp (k : Text) (hk : k ∈ s.workItems.keys) : PlainKey k :=
    ⟨(h.ids k hk).joined.joinSurrogates, hs k hk⟩
  exact ⟨hp, fun k hk => hp k (h.routes k hk), fun k hk => hp k (h.results k hk),
    fun k hk => hp k (h.approvals k hk)⟩

theorem load (h : s.Buildable) (hs : ∀ k ∈ s.workItems.keys, isSecretKey k = false) :
    loadSync host s.runId (.snapshot (snapshotOf s)) = .ok s.persisted :=
  loadSync_snapshotOf host s.runId h.version h.aware (h.plainKeys hs)

/-- An id comes back as it is just when it does not look like a secret. -/
theorem persist_id (h : s.Buildable) (hk : k ∈ s.workItems.keys) :
    persistText k = k ↔ isSecretValue k = false :=
  persistText_eq_iff (h.ids k hk).joined (h.ids k hk).ne_redacted

theorem persist_runId (h : s.Buildable) :
    persistText s.runId = s.runId ↔ isSecretValue s.runId = false :=
  persistText_eq_iff (joined_of_ascii (runId_ascii h.runId)) (runId_ne_redacted h.runId)

theorem graphKept (h : s.Buildable) (hr : isSecretValue s.runId = false)
    (hs : ∀ k ∈ s.workItems.keys, isSecretValue k = false) : s.GraphKept s.persisted where
  runId := h.persist_runId.2 hr
  workItems _ := mem_keys_persistDict
  routes _ := mem_keys_persistDict
  results _ := mem_keys_persistDict
  approvals _ := mem_keys_persistDict
  ids k item hk := by
    rw [persisted, get?_persistDict, Option.map_eq_some_iff] at hk
    obtain ⟨item, hk, rfl⟩ := hk
    have hm := Dict.mem_keys_of_get? hk
    rw [WorkItem.persisted, h.keyed k item hk]
    exact (h.persist_id hm).2 (hs k hm)
  dependencies k item item' hk hk' := by
    rw [persisted, get?_persistDict, hk] at hk'
    cases hk'
    have hd : ∀ d ∈ item.dependencies, persistText d = d := fun d hd =>
      (h.persist_id (h.dependencies k item hk d hd)).2 (hs d (h.dependencies k item hk d hd))
    rw [WorkItem.persisted, List.map_congr_left hd, List.map_id']

theorem survives_iff (h : s.Buildable) : s.Survives host ↔ isSecretValue s.runId = false ∧
    ∀ k ∈ s.workItems.keys, isSecretKey k = false ∧ isSecretValue k = false := by
  rw [survives_iff_load]
  constructor
  · rintro ⟨s', hl, hk⟩
    have hkeys : ∀ k ∈ s.workItems.keys, isSecretKey k = false := by
      intro k hm
      by_contra hs
      obtain ⟨e, he⟩ := loadSync_secret host s.runId
        (fun k hk => (h.ids k hk).joined.joinSurrogates) hm (Bool.eq_true_of_not_eq_false hs)
      rw [he] at hl
      cases hl
    rw [h.load hkeys] at hl
    cases hl
    refine ⟨h.persist_runId.1 hk.runId, fun k hm => ⟨hkeys k hm, (h.persist_id hm).1 ?_⟩⟩
    obtain ⟨item, hi⟩ := Dict.mem_keys.1 hm
    have hid : item.persisted.id = k := hk.ids k item.persisted (by
      rw [persisted, get?_persistDict, hi]
      rfl)
    rwa [WorkItem.persisted, h.keyed k item hi] at hid
  · rintro ⟨hr, hs⟩
    exact ⟨_, h.load fun k hk => (hs k hk).1, h.graphKept hr fun k hk => (hs k hk).2⟩

theorem withStatus (h : s.Buildable) (status : RunStatus) : { s with status }.Buildable :=
  ⟨h.version, h.aware, h.runId, h.ids, h.keyed, h.dependencies, h.routes, h.results, h.approvals⟩

theorem withResult (h : s.Buildable) (hr : r.workItemId ∈ s.workItems.keys) :
    (s.withResult r).Buildable :=
  ⟨h.version, h.aware, h.runId, h.ids, h.keyed, h.dependencies, h.routes, fun k hk => by
    rcases Dict.mem_keys_set.1 hk with rfl | hk
    · exact hr
    · exact h.results k hk, h.approvals⟩

theorem blocked (h : s.Buildable) (hb : s.Blockable item) :
    (s.withResult (blockedResult item)).Buildable := by
  obtain ⟨k, hk, _, _⟩ := hb
  apply h.withResult
  show item.id ∈ s.workItems.keys
  rw [h.keyed k item hk]
  exact Dict.mem_keys_of_get? hk

theorem finished (h : s.Buildable) (hf : s.Finishable item r) : (s.withResult r).Buildable :=
  h.withResult (hf.subject ▸ Dict.mem_keys_of_get? hf.stored)

theorem approved {workItemId : Text} (h : s.Buildable)
    (ha : approve host s workItemId approvedBy approvedAt = .ok s') : s'.Buildable := by
  obtain ⟨item, _, record, hi, _, _, _, _, ho, hr, rfl⟩ := approve_ok ha
  refine ⟨h.version, ⟨h.aware.1, fun r hm => ?_⟩, h.runId, h.ids, h.keyed, h.dependencies,
    h.routes, h.results, fun k hk => ?_⟩
  · obtain ⟨j, hj⟩ := Dict.mem_values.1 hm
    rw [Dict.get?_set] at hj
    split at hj
    · cases hj
      exact hr ▸ ho
    · exact h.aware.2 r (Dict.mem_values.2 ⟨j, hj⟩)
  · rcases Dict.mem_keys_set.1 hk with rfl | hk
    · exact Dict.mem_keys_of_get? hi
    · exact h.approvals k hk

theorem adopted (h : s.Buildable) (ha : s.adoptCurrentConfiguration host config = .ok s') :
    s'.Buildable := by
  obtain ⟨routes, rfl, hr⟩ := adoptCurrentConfiguration_ok ha
  refine ⟨h.version, ⟨h.aware.1, fun _ hm => absurd hm List.not_mem_nil⟩, h.runId, h.ids, h.keyed,
    h.dependencies, fun k hk => ?_, h.results, fun _ hk => absurd hk List.not_mem_nil⟩
  rcases hr k with he | ⟨_, item, _, hi, _, _⟩
  · exact h.routes k (by simpa only [Dict.mem_keys, he] using hk)
  · exact Dict.mem_keys_of_get? hi

theorem appended (h : s.Buildable) (task : Text) (decision : RouteDecision) :
    (s.withCompletion task decision).Buildable where
  version := h.version
  aware := h.aware
  runId := h.runId
  ids k hk := by
    rcases Dict.mem_keys_set.1 hk with rfl | hk
    · exact .inr rfl
    · exact h.ids k hk
  keyed k item hk := by
    rw [RunState.withCompletion, Dict.get?_set] at hk
    split at hk
    · rename_i he
      cases hk
      exact he.symm
    · exact h.keyed k item hk
  dependencies k item hk d hd := by
    apply Dict.mem_keys_set.2
    rw [RunState.withCompletion, Dict.get?_set] at hk
    split at hk
    · cases hk
      exact .inr (Dict.mem_sorted_keys.1 hd)
    · exact .inr (h.dependencies k item hk d hd)
  routes k hk := by
    apply Dict.mem_keys_set.2
    exact (Dict.mem_keys_set.1 hk).imp_right (h.routes k)
  results k hk := Dict.mem_keys_set.2 (.inr (h.results k hk))
  approvals k hk := Dict.mem_keys_set.2 (.inr (h.approvals k hk))

end RunState.Buildable

theorem Fresh.buildable {app : Application host} (h : Fresh app s) (hr : isRunId s.runId = true) :
    s.Buildable := by
  have hv := h.valid
  have hresults := h.results
  have happrovals := h.approvals
  refine ⟨hv.version, hv.aware, hr, hv.keys, ?_, ?_, fun k hk => (hv.routes k).1 hk, ?_, ?_⟩
  · cases h with
    | planned hp =>
      intro k item hk
      exact ((get?_itemTable (parseAndValidate_ok hp).distinct).1 hk).2
    | explicit he =>
      intro k item hk
      have hm := List.mem_singleton.1 (Dict.mem_entries.2 hk)
      cases hm
      rfl
  · cases h with
    | planned hp =>
      intro k item hk d hd
      have hg := parseAndValidate_ok hp
      have hm := hg.closed item ((get?_itemTable hg.distinct).1 hk).1 d hd
      exact (keys_itemTable hg.distinct).symm ▸ hm
    | explicit he =>
      intro k item hk d hd
      have hm := List.mem_singleton.1 (Dict.mem_entries.2 hk)
      cases hm
      rw [Application.explicitItem] at he
      obtain ⟨_, _, he⟩ := bind_ok he
      cases he
      cases hd
  · rw [hresults]
    exact fun _ hk => absurd hk List.not_mem_nil
  · rw [happrovals]
    exact fun _ hk => absurd hk List.not_mem_nil

/-- A new run with one item. -/
def singleState (runId id : Text) : RunState where
  schemaVersion := 1
  configurationDigest := text "digest"
  objective := ⟨runId, text "Do it", samplePath, none, samplePath,
    (sampleScript singlePlan []).time⟩
  repository := (sampleScript singlePlan []).repository
  workItems := ⟨[(id, { singleItem with id })], List.nodup_singleton _⟩
  routes := ⟨[(id, singleDecision)], List.nodup_singleton _⟩
  results := ∅
  approvals := ∅
  status := .planned

theorem singleState_buildable {runId id : Text} (hr : isRunId runId = true)
    (hi : searchIdentifier id = true) :
    (singleState runId id).Buildable where
  version := rfl
  aware := ⟨nofun, fun _ hm => absurd hm List.not_mem_nil⟩
  runId := hr
  ids k hk := by
    rw [List.mem_singleton.1 hk]
    exact .inl hi
  keyed k item hk := by
    have hm := List.mem_singleton.1 (Dict.mem_entries.2 hk)
    cases hm
    rfl
  dependencies k item hk d hd := by
    have hm := List.mem_singleton.1 (Dict.mem_entries.2 hk)
    cases hm
    cases hd
  routes _ hk := hk
  results _ hk := absurd hk List.not_mem_nil
  approvals _ hk := absurd hk List.not_mem_nil

/-- An item called "password" is a plan's right, and makes the run unreadable. -/
theorem password_item_unreadable : (singleState (text "run") (text "password")).Buildable ∧
    ¬(singleState (text "run") (text "password")).Survives sampleHost := by
  refine ⟨singleState_buildable (by decide) (by decide), fun h => ?_⟩
  obtain ⟨s', hl, _⟩ := survives_iff_load.1 h
  have he : (loadSync sampleHost (text "run")
      (.snapshot (snapshotOf (singleState (text "run") (text "password"))))).isOk = false := by
    decide +kernel
  rw [show (singleState (text "run") (text "password")).runId = text "run" from rfl] at hl
  rw [hl] at he
  cases he

theorem nodup_linkedIds : [text "a", text "b"].Nodup :=
  List.nodup_cons.2 ⟨fun h => absurd (List.mem_singleton.1 h) (by decide), List.nodup_singleton _⟩

/-- A run of two items, of which the second depends on the first, which has failed. -/
def linkedState : RunState :=
  { singleState (text "run") (text "a") with
    workItems := ⟨[(text "a", singleItem),
      (text "b", { singleItem with id := text "b", dependencies := [text "a"] })], nodup_linkedIds⟩
    routes := ⟨[(text "a", singleDecision), (text "b", singleDecision)], nodup_linkedIds⟩
    results := ⟨[(text "a", failureResult singleItem .failed (text "failed"))],
      List.nodup_singleton _⟩
    status := .failed }

theorem linkedState_buildable : linkedState.Buildable where
  version := rfl
  aware := ⟨nofun, fun _ hm => absurd hm List.not_mem_nil⟩
  runId := by decide
  ids k hk := by
    obtain rfl | hk := List.mem_cons.1 hk
    · exact .inl (by decide)
    · rw [List.mem_singleton.1 hk]
      exact .inl (by decide)
  keyed k item hk := by
    have hm := Dict.mem_entries.2 hk
    simp only [linkedState, List.mem_cons, List.not_mem_nil, or_false, Prod.mk.injEq] at hm
    obtain ⟨rfl, rfl⟩ | ⟨rfl, rfl⟩ := hm <;> rfl
  dependencies k item hk d hd := by
    have hm := Dict.mem_entries.2 hk
    simp only [linkedState, List.mem_cons, List.not_mem_nil, or_false, Prod.mk.injEq] at hm
    obtain ⟨rfl, rfl⟩ | ⟨rfl, rfl⟩ := hm
    · cases hd
    · rw [List.mem_singleton.1 hd]
      exact List.mem_cons_self
  routes _ hk := hk
  results k hk := by
    rw [List.mem_singleton.1 hk]
    exact List.mem_cons_self
  approvals _ hk := absurd hk List.not_mem_nil

/-- A run whose second item depends on the first keeps its graph. -/
theorem linkedState_survives : linkedState.Survives sampleHost := by
  have hr : isSecretValue linkedState.runId = false := by decide +kernel
  have hk : ∀ k ∈ linkedState.workItems.keys, isSecretKey k = false ∧ isSecretValue k = false := by
    decide +kernel
  exact linkedState_buildable.survives_iff.2 ⟨hr, hk⟩

end GoalRouter
