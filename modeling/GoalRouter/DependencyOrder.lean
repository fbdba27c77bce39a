import GoalRouter.OperationRefinement
import GoalRouter.ScriptedWorld

namespace GoalRouter
open Library
set_option autoImplicit true

namespace RunState

/-- No id of the run is shaped like a secret. -/
def hasPlainIds (s : RunState) : Bool := s.workItems.keys.all fun k => !isSecretValue k

/-- What a result says about the dependencies of its item. -/
def isJustified (s : RunState) (item : WorkItem) (r : WorkResult) : Bool :=
  match r.status with
  | .succeeded | .failed => item.dependencies.all s.hasSucceeded
  | .blocked => item.dependencies.any s.hasFailed
  | _ => true

/-- Every item with a result is justified by the results of its dependencies. -/
def isOrdered (s : RunState) : Bool :=
  s.workItems.entries.all fun e => ((s.results.get? e.1).map (s.isJustified e.2)).getD true

/-- The items of a run with plain ids, whose dependencies are items of the run too. -/
structure Ordered (s : RunState) : Prop where
  ids : ∀ k item, s.workItems.get? k = some item → item.id = k
  closed : ∀ k item, s.workItems.get? k = some item →
    ∀ d ∈ item.dependencies, d ∈ s.workItems.keys
  justified : ∀ k item r, s.workItems.get? k = some item → s.results.get? k = some r →
    s.isJustified item r = true

variable {s : RunState} {item : WorkItem} {r : WorkResult}

theorem hasPlainIds_iff :
    s.hasPlainIds = true ↔ ∀ k ∈ s.workItems.keys, isSecretValue k = false := by
  simp only [hasPlainIds, List.all_eq_true, Bool.not_eq_true']

theorem isOrdered_iff : s.isOrdered = true ↔ ∀ k item r, s.workItems.get? k = some item →
    s.results.get? k = some r → s.isJustified item r = true := by
  simp only [isOrdered, List.all_eq_true, Prod.forall, Dict.mem_entries]
  constructor
  · intro h k item r hk hr
    have hj := h k item hk
    rw [hr] at hj
    exact hj
  · intro h k item hk
    cases hr : s.results.get? k with
    | none => rfl
    | some r => exact h k item r hk hr

theorem isJustified_withResult {r' : WorkResult} (hu : s.isUnfinished r'.workItemId = true)
    (h : s.isJustified item r = true) : (s.withResult r').isJustified item r = true := by
  have hs (d : Text) (hd : s.hasSucceeded d = true) : (s.withResult r').hasSucceeded d = true := by
    have hne : d ≠ r'.workItemId := by
      rintro rfl
      rw [not_unfinished_of_succeeded hd] at hu
      cases hu
    rw [hasSucceeded_withResult, if_neg hne]
    exact hd
  have hf (d : Text) (hd : s.hasFailed d = true) : (s.withResult r').hasFailed d = true := by
    have hne : d ≠ r'.workItemId := by
      rintro rfl
      rw [not_unfinished_of_failed hd] at hu
      cases hu
    rw [hasFailed_withResult, if_neg hne]
    exact hd
  rw [isJustified.eq_def] at h ⊢
  split at h
  · exact List.all_eq_true.2 fun d hd => hs d (List.all_eq_true.1 h d hd)
  · exact List.all_eq_true.2 fun d hd => hs d (List.all_eq_true.1 h d hd)
  · obtain ⟨d, hd, hfd⟩ := List.any_eq_true.1 h
    exact List.any_eq_true.2 ⟨d, hd, hf d hfd⟩
  · rfl

namespace Ordered

theorem withResult (h : s.Ordered) (hi : s.workItems.get? r.workItemId = some item)
    (hu : s.isUnfinished r.workItemId = true) (hj : s.isJustified item r = true) :
    (s.withResult r).Ordered where
  ids := h.ids
  closed := h.closed
  justified k item' r' hk hr := by
    apply isJustified_withResult hu
    rw [RunState.withResult, Dict.get?_set] at hr
    split at hr
    · rename_i he
      cases hr
      have hi' : s.workItems.get? k = some item' := hk
      rw [he, hi] at hi'
      cases hi'
      exact hj
    · exact h.justified k item' r' hk hr

theorem persisted (h : s.Ordered) (hplain : ∀ k ∈ s.workItems.keys, persistText k = k) :
    s.persisted.Ordered := by
  have hdeps (k : Text) (item : WorkItem) (hk : s.workItems.get? k = some item) :
      item.persisted.dependencies = item.dependencies := by
    conv => rhs; rw [← List.map_id item.dependencies]
    apply List.map_congr_left
    exact fun d hd => hplain d (h.closed k item hk d hd)
  have hitem {k : Text} {item : WorkItem} (hk : s.persisted.workItems.get? k = some item) :
      ∃ item₀, s.workItems.get? k = some item₀ ∧ item = item₀.persisted := by
    rw [RunState.persisted, get?_persistDict, Option.map_eq_some_iff] at hk
    obtain ⟨item₀, hk, rfl⟩ := hk
    exact ⟨item₀, hk, rfl⟩
  constructor
  · intro k item hk
    obtain ⟨item₀, hk₀, rfl⟩ := hitem hk
    rw [WorkItem.persisted, h.ids k item₀ hk₀]
    exact hplain k (Dict.mem_keys_of_get? hk₀)
  · intro k item hk d hd
    obtain ⟨item₀, hk₀, rfl⟩ := hitem hk
    rw [hdeps k item₀ hk₀] at hd
    exact mem_workItems_persisted.2 (h.closed k item₀ hk₀ d hd)
  · intro k item r hk hr
    obtain ⟨item₀, hk₀, rfl⟩ := hitem hk
    rw [RunState.persisted, get?_persistDict, Option.map_eq_some_iff] at hr
    obtain ⟨r₀, hr₀, rfl⟩ := hr
    have hj := h.justified k item₀ r₀ hk₀ hr₀
    simp only [isJustified, hdeps k item₀ hk₀, WorkResult.persisted_status] at hj ⊢
    simpa only [hasSucceeded_persisted, hasFailed_persisted, funext (hasSucceeded_persisted s),
      funext (hasFailed_persisted s)] using hj

theorem appended (h : s.Ordered) (hv : s.Valid) (hn : completionId ∉ s.workItems.keys)
    (task : Text) (decision : RouteDecision) : (s.withCompletion task decision).Ordered := by
  constructor
  · intro k item hk
    rw [withCompletion, Dict.get?_set] at hk
    split at hk
    · rename_i he
      cases hk
      exact he.symm
    · exact h.ids k item hk
  · intro k item hk d hd
    apply Dict.mem_keys_set.2
    rw [withCompletion, Dict.get?_set] at hk
    split at hk
    · cases hk
      exact .inr (Dict.mem_sorted_keys.1 hd)
    · exact .inr (h.closed k item hk d hd)
  · intro k item r hk hr
    rw [withCompletion, Dict.get?_set] at hk
    split at hk
    · rename_i he
      have hr : s.results.get? k = some r := hr
      rcases hv.results k r hr with hm | ⟨hr, _⟩
      · exact absurd (he ▸ hm) hn
      · exact absurd (he ▸ hr) (ItemId.ne_redacted (.inr rfl))
    · exact h.justified k item r hk hr

end Ordered

end RunState

theorem Fresh.ordered {app : Application host} (h : Fresh app s) : s.Ordered := by
  have hj : ∀ k item r, s.workItems.get? k = some item → s.results.get? k = some r →
      s.isJustified item r = true := by
    intro k item r _ hr
    rw [h.results] at hr
    cases hr
  cases h with
  | @planned _ _ _ objective items hp _ _ _ _ =>
    have hg := parseAndValidate_ok hp
    refine ⟨fun k item hk => ((get?_itemTable hg.distinct).1 hk).2, fun k item hk d hd => ?_, hj⟩
    have hi := ((get?_itemTable hg.distinct).1 hk).1
    exact (keys_itemTable hg.distinct).symm ▸ hg.closed item hi d hd
  | explicit he =>
    rw [Application.explicitItem] at he
    obtain ⟨decision, _, he⟩ := bind_ok he
    cases he
    refine ⟨fun k item hk => ?_, fun k item hk d hd => ?_, hj⟩
    · cases List.mem_singleton.1 (Dict.mem_entries.2 hk)
      rfl
    · cases List.mem_singleton.1 (Dict.mem_entries.2 hk)
      cases hd

theorem ordered_invariant (host : Host) :
    ValidInvariant host fun _ s => s.hasPlainIds = true → s.Ordered where
  event _ h := h
  landed _ h := h
  fresh _ hf _ _ := hf.ordered
  loaded {_ s _ _} hv h hl hp := by
    have hs := hv.load hl
    subst hs
    have hp₀ : s.hasPlainIds = true := by
      apply RunState.hasPlainIds_iff.2
      exact fun k hk => RunState.hasPlainIds_iff.1 hp k (RunState.mem_workItems_persisted.2 hk)
    apply (h hp₀).persisted
    exact fun k hk => persistText_of_plain (RunState.hasPlainIds_iff.1 hp₀ k hk)
      (hv.keys k hk).joined
  approved _ _ _ _ h ha hp := by
    obtain ⟨_, _, _, _, _, _, _, _, _, _, rfl⟩ := approve_ok ha
    exact ⟨(h hp).ids, (h hp).closed, (h hp).justified⟩
  adopted _ _ _ h ha hp := by
    obtain ⟨_, rfl, _⟩ := RunState.adoptCurrentConfiguration_ok ha
    exact ⟨(h hp).ids, (h hp).closed, (h hp).justified⟩
  blocked _ h hb hp := by
    obtain ⟨k, hk, hu, hf⟩ := hb
    have hid := (h hp).ids k _ hk
    subst hid
    exact (h hp).withResult hk hu hf
  finished _ h hf hp := by
    have hid := hf.subject
    refine (h hp).withResult (hid ▸ hf.stored) (hid ▸ hf.unfinished) ?_
    rcases hf.terminal with hs | hs <;> simp only [RunState.isJustified, hs] <;> exact hf.ready
  statusSet _ h _ hp := ⟨(h hp).ids, (h hp).closed, (h hp).justified⟩
  concluded _ h _ _ hp := ⟨(h hp).ids, (h hp).closed, (h hp).justified⟩
  appended {_ s _} app _ hv h _ _ hn _ hp := by
    have hp₀ : s.hasPlainIds = true := by
      apply RunState.hasPlainIds_iff.2
      exact fun k hk => RunState.hasPlainIds_iff.1 hp k (Dict.mem_keys_set.2 (.inr hk))
    exact (h hp₀).appended hv hn _ _

/-- The states of a run justify their results, and an item is dispatched only after all it
depends on. -/
def Event.respectsDependencies : Event → Bool
  | .answered (.note (.dispatching s item)) _ =>
    s.isOrdered && item.dependencies.all s.hasSucceeded
  | e => (e.state?.map RunState.isOrdered).getD true

def Event.hasPlainIds (e : Event) : Bool := (e.state?.map RunState.hasPlainIds).getD true

/-- As long as no id of the run is shaped like a secret, dependencies are respected. -/
theorem dependencies_respected (h : Reachable host w) (hp : ∀ e ∈ w.log, e.hasPlainIds = true) :
    ∀ e ∈ w.log, e.respectsDependencies = true := by
  obtain ⟨m, hw⟩ := h.alive
  intro e he
  have hordered (s : RunState) (hs : e.state? = some s) : s.isOrdered = true := by
    have hps := hp e he
    rw [Event.hasPlainIds, hs] at hps
    have ho := ((ordered_invariant host).of_event hw he hs).2 hps
    exact RunState.isOrdered_iff.2 ho.justified
  have hstate : (e.state?.map RunState.isOrdered).getD true = true := by
    cases hs : e.state? with
    | none => rfl
    | some s => exact hordered s hs
  rw [Event.respectsDependencies.eq_def]
  split
  · rename_i s item r
    obtain ⟨later, earlier, hl⟩ := List.append_of_mem he
    obtain ⟨w₀, _, _, hd⟩ := hw.origin hl
    have hdeps := List.all_eq_true.2 (RunState.mem_dispatchable.1 hd).2.1
    exact Bool.and_eq_true_iff.2 ⟨hstate, hdeps⟩
  · exact hstate

/-- An item is blocked by the failure of `sk-abcdef`; read back, it depends on an item that does
not exist. -/
theorem redacted_dependency :
    ¬∀ (host : Host) (w : World), Reachable host w →
      ∀ e ∈ w.log, e.respectsDependencies = true := by
  intro h
  have hw := (sampleScript secretPlan []).session_reachable plainApplication
    (.runObjective samplePath (text "Go") none) sampleWorld_reachable
  have hw := (sampleScript secretPlan []).session_reachable plainApplication
    (.status (text "run")) hw
  have hall := List.all_eq_true.2 (h sampleHost _ hw)
  exact absurd hall (by decide +kernel)

/-- The first item succeeds, the second fails, the third is blocked, and each has its reason. -/
theorem dependent_run_respected :
    (dependentRun.log.findSome? Event.state?).map (fun s =>
      [text "a", text "b", text "c"].map fun k => (s.results.get? k).map WorkResult.status) =
        some [some .succeeded, some .failed, some .blocked] ∧
      dependentRun.log.all Event.respectsDependencies = true := by
  refine ⟨by decide +kernel, List.all_eq_true.2 ?_⟩
  apply dependencies_respected dependentRun_reachable
  exact List.all_eq_true.1 (by decide +kernel)

end GoalRouter
