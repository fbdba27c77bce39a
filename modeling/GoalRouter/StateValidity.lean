import GoalRouter.Lifecycle
import GoalRouter.PlannedGraph

namespace GoalRouter
open Library
set_option autoImplicit true

/-- The ids of a run: those the planner's schema admits, and that of the completion review. -/
def ItemId (t : Text) : Prop := searchIdentifier t = true ∨ t = completionId

theorem isIdentifier_mem {t : Text} {c : CodePoint} (h : isIdentifier t = true) (hc : c ∈ t) :
    lowerAlphanumeric c = true ∨ c = 0x2D := by
  rcases mem_splitOn hc with he | ⟨p, hp, hcp⟩
  · exact .inr he
  · have hall := List.all_eq_true.1 h p hp
    exact .inl (List.all_eq_true.1 (Bool.and_eq_true_iff.1 hall).2 c hcp)

theorem searchIdentifier_mem {t : Text} {c : CodePoint} (h : searchIdentifier t = true)
    (hc : c ∈ t) : lowerAlphanumeric c = true ∨ c = 0x2D ∨ c = 0x0A := by
  rw [searchIdentifier, Bool.or_eq_true, Bool.and_eq_true, beq_iff_eq] at h
  rcases h with h | ⟨hl, h⟩
  · exact (isIdentifier_mem h hc).imp_right .inl
  · have hs := List.dropLast_append_getLast? _ hl
    rw [← hs, List.mem_append, List.mem_singleton] at hc
    rcases hc with hc | hc
    · exact (isIdentifier_mem h hc).imp_right .inl
    · exact .inr (.inr hc)

namespace ItemId

theorem ascii (h : ItemId t) : ∀ c ∈ t, isAscii c = true := by
  rcases h with h | rfl
  · intro c hc
    simp only [isAscii, decide_eq_true_eq]
    rcases searchIdentifier_mem h hc with hc | rfl | rfl
    · simp only [lowerAlphanumeric, Bool.or_eq_true, Bool.and_eq_true, decide_eq_true_eq] at hc
      omega
    · decide
    · decide
  · exact List.all_eq_true.1 (by decide)

theorem joined (h : ItemId t) : Joined t := joined_of_ascii h.ascii

theorem ne_redacted (h : ItemId t) : t ≠ redacted := by
  rintro rfl
  rcases h with h | h
  · rcases searchIdentifier_mem h (c := 0x5B) (by decide) with h | h | h <;> cases h
  · exact absurd h (by decide)

theorem persist (h : ItemId t) : persistText t = t ∨ persistText t = redacted := by
  cases hs : isSecretValue t with
  | false => exact .inl (persistText_of_plain hs h.joined)
  | true => exact .inr (by rw [persistText, redactText, if_pos hs, joined_redacted])

end ItemId

@[simp] theorem persistText_redacted : persistText redacted = redacted := by
  rw [persistText, redactText_redacted, joined_redacted]

@[simp] theorem WorkResult.persisted_status (r : WorkResult) : r.persisted.status = r.status := rfl

namespace RunState

@[simp] theorem isUnfinished_persisted (s : RunState) (k : Text) :
    s.persisted.isUnfinished k = s.isUnfinished k := by
  simp only [isUnfinished, persisted, get?_persistDict, Option.map_map]
  rfl

@[simp] theorem hasSucceeded_persisted (s : RunState) (k : Text) :
    s.persisted.hasSucceeded k = s.hasSucceeded k := by
  simp only [hasSucceeded, persisted, get?_persistDict, Option.map_map]
  rfl

@[simp] theorem hasFailed_persisted (s : RunState) (k : Text) :
    s.persisted.hasFailed k = s.hasFailed k := by
  simp only [hasFailed, persisted, get?_persistDict, Option.map_map]
  rfl

theorem mem_workItems_persisted {s : RunState} {k : Text} :
    k ∈ s.persisted.workItems.keys ↔ k ∈ s.workItems.keys :=
  mem_keys_persistDict

/-- What every state of a run satisfies. An item whose id was redacted keeps its key, and the
only result stored under the redacted id says that such an item is blocked. -/
structure Valid (s : RunState) : Prop where
  version : s.schemaVersion = 1
  aware : s.Aware
  keys : ∀ k ∈ s.workItems.keys, ItemId k
  ids : ∀ k item, s.workItems.get? k = some item → item.id = k ∨ item.id = redacted
  routes : ∀ k, k ∈ s.routes.keys ↔ k ∈ s.workItems.keys
  results : ∀ k r, s.results.get? k = some r → k ∈ s.workItems.keys ∨
    k = redacted ∧ ∃ item, item.id = redacted ∧ r.persisted = (blockedResult item).persisted
  terminal : ∀ k r, s.results.get? k = some r → r.status.isResumable = false
  approvals : ∀ k ∈ s.approvals.keys, k ∈ s.workItems.keys

namespace Valid

variable {s : RunState}

theorem id_eq (h : s.Valid) (hg : s.workItems.get? k = some item)
    (hm : item.id ∈ s.workItems.keys) : item.id = k := by
  rcases h.ids k item hg with he | he
  · exact he
  · exact absurd he (h.keys _ hm).ne_redacted

theorem unfinished_iff (h : s.Valid) : s.isUnfinished k = true ↔ s.results.get? k = none := by
  rw [isUnfinished_iff]
  cases hr : s.results.get? k with
  | none => simp
  | some r =>
    simp only [Option.some.injEq, forall_eq', reduceCtorEq, iff_false]
    rw [h.terminal k r hr]
    exact Bool.false_ne_true

theorem dispatchable (h : s.Valid) (hd : item ∈ s.dispatchable host) :
    s.workItems.get? item.id = some item ∧ s.isUnfinished item.id = true := by
  obtain ⟨hp, _, ha⟩ := mem_dispatchable.1 hd
  obtain ⟨k, hk, hu⟩ := mem_pendingItems.1 hp
  obtain ⟨_, _, hi, _, _⟩ := requireDispatchable_ok ha
  have he := h.id_eq hk (Dict.mem_keys_of_get? hi)
  rw [he]
  exact ⟨hk, hu⟩

theorem plainKeys (h : s.Valid) (hs : ∀ k ∈ s.workItems.keys, isSecretKey k = false) :
    s.PlainKeys where
  workItems k hk := ⟨(h.keys k hk).joined.joinSurrogates, hs k hk⟩
  routes k hk := by
    have hk := (h.routes k).1 hk
    exact ⟨(h.keys k hk).joined.joinSurrogates, hs k hk⟩
  results k hk := by
    obtain ⟨r, hr⟩ := Dict.mem_keys.1 hk
    rcases h.results k r hr with hk | ⟨rfl, _⟩
    · exact ⟨(h.keys k hk).joined.joinSurrogates, hs k hk⟩
    · exact ⟨joined_redacted, by decide +kernel⟩
  approvals k hk := by
    have hk := h.approvals k hk
    exact ⟨(h.keys k hk).joined.joinSurrogates, hs k hk⟩

theorem load {rid : Text} (h : s.Valid)
    (hl : loadSync host rid (.snapshot (snapshotOf s)) = .ok s') :
    s' = s.persisted := by
  by_cases hs : ∀ k ∈ s.workItems.keys, isSecretKey k = false
  · rw [loadSync_snapshotOf host rid h.version h.aware (h.plainKeys hs)] at hl
    exact (Except.ok.inj hl).symm
  · simp only [not_forall, Bool.not_eq_false] at hs
    obtain ⟨k, hk, hs⟩ := hs
    obtain ⟨e, he⟩ := loadSync_secret host rid
      (fun k hk => (h.keys k hk).joined.joinSurrogates) hk hs
    rw [he] at hl
    cases hl

theorem persisted (h : s.Valid) : s.persisted.Valid where
  version := h.version
  aware := by
    refine ⟨h.aware.1, fun r hr => ?_⟩
    obtain ⟨k, hk⟩ := Dict.mem_values.1 hr
    rw [RunState.persisted, get?_persistDict, Option.map_eq_some_iff] at hk
    obtain ⟨r, hk, rfl⟩ := hk
    exact h.aware.2 r (Dict.mem_values.2 ⟨k, hk⟩)
  keys k hk := h.keys k (mem_keys_persistDict.1 hk)
  ids k item hk := by
    rw [RunState.persisted, get?_persistDict, Option.map_eq_some_iff] at hk
    obtain ⟨item, hk, rfl⟩ := hk
    rcases h.ids k item hk with he | he
    · have hi := (h.keys k (Dict.mem_keys_of_get? hk)).persist
      rwa [← he] at hi ⊢
    · exact .inr (by rw [WorkItem.persisted, he, persistText_redacted])
  routes k := mem_keys_persistDict.trans ((h.routes k).trans mem_keys_persistDict.symm)
  results k r hr := by
    rw [RunState.persisted, get?_persistDict, Option.map_eq_some_iff] at hr
    obtain ⟨r, hr, rfl⟩ := hr
    rw [WorkResult.persisted_idem]
    exact (h.results k r hr).imp_left mem_keys_persistDict.2
  terminal k r hr := by
    rw [RunState.persisted, get?_persistDict, Option.map_eq_some_iff] at hr
    obtain ⟨r, hr, rfl⟩ := hr
    exact h.terminal k r hr
  approvals k hk := mem_keys_persistDict.2 (h.approvals k (mem_keys_persistDict.1 hk))

theorem withStatus (h : s.Valid) (status : RunStatus) : { s with status }.Valid :=
  ⟨h.version, h.aware, h.keys, h.ids, h.routes, h.results, h.terminal, h.approvals⟩

theorem withApproval (h : s.Valid) (hk : k ∈ s.workItems.keys)
    (hr : record.approvedAt.offset ≠ none) :
    { s with approvals := s.approvals.set k record }.Valid where
  version := h.version
  aware := by
    refine ⟨h.aware.1, fun r hm => ?_⟩
    obtain ⟨j, hj⟩ := Dict.mem_values.1 hm
    rw [Dict.get?_set] at hj
    split at hj
    · cases hj
      exact hr
    · exact h.aware.2 r (Dict.mem_values.2 ⟨j, hj⟩)
  keys := h.keys
  ids := h.ids
  routes := h.routes
  results := h.results
  terminal := h.terminal
  approvals j hj := by
    rcases Dict.mem_keys_set.1 hj with rfl | hj
    · exact hk
    · exact h.approvals j hj

theorem withRoutes (h : s.Valid) {routes : Dict Text RouteDecision} {digest : Text}
    (hr : ∀ k, k ∈ routes.keys ↔ k ∈ s.workItems.keys) :
    { s with routes, configurationDigest := digest, approvals := ∅ }.Valid where
  version := h.version
  aware := ⟨h.aware.1, fun _ hm => absurd hm List.not_mem_nil⟩
  keys := h.keys
  ids := h.ids
  routes := hr
  results := h.results
  terminal := h.terminal
  approvals _ hk := absurd hk List.not_mem_nil

theorem withResult (h : s.Valid) (ht : r.status.isResumable = false)
    (hk : r.workItemId ∈ s.workItems.keys ∨ r.workItemId = redacted ∧
      ∃ item, item.id = redacted ∧ r.persisted = (blockedResult item).persisted) :
    (s.withResult r).Valid where
  version := h.version
  aware := h.aware
  keys := h.keys
  ids := h.ids
  routes := h.routes
  results k r' hr := by
    rw [RunState.withResult, Dict.get?_set] at hr
    split at hr
    · rename_i he
      cases hr
      rw [he]
      exact hk
    · exact h.results k r' hr
  terminal k r' hr := by
    rw [RunState.withResult, Dict.get?_set] at hr
    split at hr
    · cases hr
      exact ht
    · exact h.terminal k r' hr
  approvals := h.approvals

theorem blocked (h : s.Valid) (hb : s.Blockable item) :
    (s.withResult (blockedResult item)).Valid := by
  obtain ⟨k, hk, _, _⟩ := hb
  refine h.withResult rfl ?_
  rcases h.ids k item hk with he | he
  · exact .inl (Dict.mem_keys_of_get? (he ▸ hk))
  · exact .inr ⟨he, item, he, rfl⟩

theorem finished (h : s.Valid) (hf : s.Finishable item r) : (s.withResult r).Valid := by
  refine h.withResult ?_ (.inl ?_)
  · rcases hf.terminal with ht | ht <;> rw [ht] <;> rfl
  · rw [hf.subject]
    exact Dict.mem_keys_of_get? hf.stored

/-- A new result takes the place of none that is final. -/
theorem succeeded_of_blocked (h : s.Valid) (hb : s.Blockable item) (hk : k ∈ s.workItems.keys)
    (hs : s.hasSucceeded k = true) :
    (s.withResult (blockedResult item)).hasSucceeded k = true := by
  obtain ⟨k', hk', hu, _⟩ := hb
  have hne : k ≠ item.id := by
    rintro rfl
    rw [← h.id_eq hk' hk, not_unfinished_of_succeeded hs] at hu
    cases hu
  rw [hasSucceeded_withResult]
  exact (if_neg hne).trans hs

theorem succeeded_of_finished (hf : s.Finishable item r) (hs : s.hasSucceeded k = true) :
    (s.withResult r).hasSucceeded k = true := by
  have hne : k ≠ r.workItemId := by
    rw [hf.subject]
    rintro rfl
    have hu := hf.unfinished
    rw [not_unfinished_of_succeeded hs] at hu
    cases hu
  rw [hasSucceeded_withResult]
  exact (if_neg hne).trans hs

theorem succeeded_of_completed (h : s.Valid) (hf : s.finalStatus host = .ok .completed) :
    ∀ k ∈ s.workItems.keys, s.hasSucceeded k = true := by
  rw [finalStatus] at hf
  split at hf
  · cases hf
  · split at hf
    · cases hf
    · split at hf
      · rename_i hc
        have hall (k : Text) (r : WorkResult) (hr : s.results.get? k = some r) :
            r.status = .succeeded :=
          hc.2 _ (List.mem_map_of_mem (Dict.mem_values.2 ⟨k, hr⟩))
        have hsub : ∀ k ∈ s.results.keys, k ∈ s.workItems.keys := by
          intro k hk
          obtain ⟨r, hr⟩ := Dict.mem_keys.1 hk
          rcases h.results k r hr with hk | ⟨_, item, _, he⟩
          · exact hk
          · have hb : r.status = .blocked := congrArg WorkResult.status he
            rw [hall k r hr] at hb
            cases hb
        intro k hk
        obtain ⟨r, hr⟩ := Dict.mem_keys.1 (Dict.mem_keys_of_size_eq hsub hc.1 hk)
        exact hasSucceeded_iff.2 ⟨r, hr, hall k r hr⟩
      · cases ha : s.awaitsApproval host s.workItems.values with
        | error e =>
          rw [ha] at hf
          cases hf
        | ok b =>
          rw [ha] at hf
          cases b <;> cases hf

theorem appended (h : s.Valid) (task : Text) (decision : RouteDecision) :
    (s.withCompletion task decision).Valid where
  version := h.version
  aware := h.aware
  keys k hk := by
    rcases Dict.mem_keys_set.1 hk with rfl | hk
    · exact .inr rfl
    · exact h.keys k hk
  ids k item hk := by
    rw [RunState.withCompletion, Dict.get?_set] at hk
    split at hk
    · rename_i he
      cases hk
      exact .inl he.symm
    · exact h.ids k item hk
  routes k := by
    simp only [RunState.withCompletion, Dict.mem_keys_set, h.routes]
  results k r hr := (h.results k r hr).imp_left fun hk => Dict.mem_keys_set.2 (.inr hk)
  terminal := h.terminal
  approvals k hk := Dict.mem_keys_set.2 (.inr (h.approvals k hk))

end Valid

/-- Adoption changes the routes of unfinished items only, and drops the approvals. -/
theorem reroute_ok {entries : List (Text × WorkItem)} {s s' : RunState}
    (h : reroute host config s entries = .ok s') :
    s' = { s with routes := s'.routes } ∧ ∀ k, s'.routes.get? k = s.routes.get? k ∨
      s.isUnfinished k = true ∧ ∃ item decision, (k, item) ∈ entries ∧
        route host config item none = .ok decision ∧ s'.routes.get? k = some decision := by
  induction entries generalizing s with
  | nil =>
    cases h
    exact ⟨rfl, fun k => .inl rfl⟩
  | cons e entries ih =>
    obtain ⟨id, item⟩ := e
    rw [reroute] at h
    split at h
    · rename_i hu
      obtain ⟨decision, hd, h⟩ := bind_ok h
      obtain ⟨hs, hr⟩ := ih h
      refine ⟨hs, fun k => ?_⟩
      rcases hr k with he | ⟨hk, item', decision', hm, hd', hg⟩
      · rw [Dict.get?_set] at he
        split at he
        · rename_i hk
          subst hk
          exact .inr ⟨hu, item, decision, List.mem_cons_self, hd, he⟩
        · exact .inl he
      · exact .inr ⟨hk, item', decision', List.mem_cons_of_mem _ hm, hd', hg⟩
    · obtain ⟨hs, hr⟩ := ih h
      refine ⟨hs, fun k => (hr k).imp_right ?_⟩
      rintro ⟨hk, item', decision', hm, hd', hg⟩
      exact ⟨hk, item', decision', List.mem_cons_of_mem _ hm, hd', hg⟩

theorem adoptCurrentConfiguration_ok {s s' : RunState}
    (h : s.adoptCurrentConfiguration host config = .ok s') :
    ∃ routes, s' = { s with routes, configurationDigest := config.digest, approvals := ∅ } ∧
      ∀ k, routes.get? k = s.routes.get? k ∨
        s.isUnfinished k = true ∧ ∃ item decision, s.workItems.get? k = some item ∧
          route host config item none = .ok decision ∧ routes.get? k = some decision := by
  rw [adoptCurrentConfiguration] at h
  cases hr : reroute host config s s.workItems.entries with
  | error e =>
    rw [hr] at h
    cases h
  | ok s₁ =>
    rw [hr] at h
    cases h
    obtain ⟨hs, hk⟩ := reroute_ok hr
    refine ⟨s₁.routes, by rw [hs], fun k => (hk k).imp_right ?_⟩
    rintro ⟨hu, item, decision, hm, hd, hg⟩
    exact ⟨hu, item, decision, Dict.mem_entries.1 hm, hd, hg⟩

theorem Valid.adopted {s : RunState} (h : s.Valid)
    (ha : s.adoptCurrentConfiguration host config = .ok s') : s'.Valid := by
  obtain ⟨routes, rfl, hr⟩ := adoptCurrentConfiguration_ok ha
  refine h.withRoutes fun k => ?_
  rcases hr k with he | ⟨_, item, decision, hi, _, hg⟩
  · rw [← h.routes k]
    simp only [Dict.mem_keys, he]
  · exact ⟨fun _ => Dict.mem_keys_of_get? hi, fun _ => Dict.mem_keys_of_get? hg⟩

theorem Valid.approved {s : RunState} {workItemId : Text} (h : s.Valid)
    (ha : approve host s workItemId approvedBy approvedAt = .ok s') : s'.Valid := by
  obtain ⟨item, _, record, hi, _, _, _, _, ho, hr, rfl⟩ := approve_ok ha
  exact h.withApproval (Dict.mem_keys_of_get? hi) (hr ▸ ho)

end RunState

variable {host : Host} {app : Application host}

theorem routeItems_ok {items : List WorkItem} (h : app.routeItems items = .ok routes)
    (hn : (items.map WorkItem.id).Nodup) : ∀ k, k ∈ routes.keys ↔ k ∈ items.map WorkItem.id := by
  rw [Application.routeItems] at h
  obtain ⟨entries, he, h⟩ := bind_ok h
  cases h
  have hk : entries.map Prod.fst = items.map WorkItem.id := by
    refine mapM_ok_map he fun item entry hr => ?_
    obtain ⟨decision, _, hr⟩ := bind_ok hr
    cases hr
    rfl
  intro k
  rw [← hk, Dict.keys, Dict.ofList_entries (hk ▸ hn)]

theorem keys_itemTable {items : List WorkItem} (hn : (items.map WorkItem.id).Nodup) :
    (Dict.ofList (items.map fun item => (item.id, item))).keys = items.map WorkItem.id := by
  have hids : (items.map fun item => (item.id, item)).map Prod.fst = items.map WorkItem.id := by
    rw [List.map_map]
    rfl
  rw [Dict.keys, Dict.ofList_entries (hids ▸ hn), hids]

theorem get?_itemTable {items : List WorkItem} (hn : (items.map WorkItem.id).Nodup) :
    (Dict.ofList (items.map fun item => (item.id, item))).get? k = some item ↔
      item ∈ items ∧ item.id = k := by
  have hids : (items.map fun item => (item.id, item)).map Prod.fst = items.map WorkItem.id := by
    rw [List.map_map]
    rfl
  rw [← Dict.mem_entries, Dict.ofList_entries (hids ▸ hn), List.mem_map]
  constructor
  · rintro ⟨item', hi, he⟩
    cases he
    exact ⟨hi, rfl⟩
  · rintro ⟨hi, rfl⟩
    exact ⟨item, hi, rfl⟩

theorem Fresh.valid (h : Fresh app s) : s.Valid := by
  cases h with
  | @planned content routes repository objective items hp hc hr ho ht =>
    have hg := parseAndValidate_ok hp
    have hkeys (k : Text) : k ∈ (Dict.ofList (items.map fun item => (item.id, item))).keys ↔
        k ∈ items.map WorkItem.id := by
      rw [keys_itemTable hg.distinct]
    refine ⟨rfl, ⟨ht, fun _ hm => absurd hm List.not_mem_nil⟩, fun k hk => ?_, fun k item hk => ?_,
      fun k => (routeItems_ok hr hg.distinct k).trans (hkeys k).symm, (fun _ _ hr => by cases hr),
      (fun _ _ hr => by cases hr), fun _ hk => absurd hk List.not_mem_nil⟩
    · obtain ⟨item, hi, rfl⟩ := List.mem_map.1 ((hkeys k).1 hk)
      exact .inl (hg.identifiers item hi)
    · exact .inl ((get?_itemTable hg.distinct).1 hk).2
  | @explicit _ _ _ _ _ repository objective he ho ht =>
    rw [Application.explicitItem] at he
    obtain ⟨decision', _, he⟩ := bind_ok he
    cases he
    refine ⟨rfl, ⟨ht, fun _ hm => absurd hm List.not_mem_nil⟩, fun k hk => ?_, fun k item hk => ?_,
      fun k => Iff.rfl, (fun _ _ hr => by cases hr), (fun _ _ hr => by cases hr),
      fun _ hk => absurd hk List.not_mem_nil⟩
    · rw [List.mem_singleton.1 hk]
      have ht : searchIdentifier (text "task") = true := by decide
      exact .inl ht
    · have hm := List.mem_singleton.1 (Dict.mem_entries.2 hk)
      cases hm
      exact .inl rfl

theorem Fresh.results (h : Fresh app s) : s.results = ∅ := by
  cases h <;> rfl

theorem Fresh.approvals (h : Fresh app s) : s.approvals = ∅ := by
  cases h <;> rfl

theorem Fresh.status (h : Fresh app s) : s.status = .planned := by
  cases h <;> rfl

end GoalRouter
