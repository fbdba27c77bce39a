import GoalRouter.AcyclicGraph
import GoalRouter.SchedulerPasses
import GoalRouter.ScriptedWorld

namespace GoalRouter
open Library
set_option autoImplicit true

theorem BatchEnded.of_result {items : List WorkItem} {results : List WorkResult}
    (h : BatchEnded items results) (hr : r ∈ results) : ∃ item ∈ items, Ended item.id r := by
  induction h with
  | nil => cases hr
  | cons he _ ih =>
    rcases List.mem_cons.1 hr with rfl | hr
    · exact ⟨_, List.mem_cons_self, he⟩
    · obtain ⟨item, hi, he⟩ := ih hr
      exact ⟨item, List.mem_cons_of_mem _ hi, he⟩

theorem BatchEnded.of_item {items : List WorkItem} {results : List WorkResult}
    (h : BatchEnded items results) (hi : item ∈ items) : ∃ r ∈ results, Ended item.id r := by
  induction h with
  | nil => cases hi
  | cons he _ ih =>
    rcases List.mem_cons.1 hi with rfl | hi
    · exact ⟨_, List.mem_cons_self, he⟩
    · obtain ⟨r, hr, he⟩ := ih hi
      exact ⟨r, List.mem_cons_of_mem _ hr, he⟩

namespace RunState

section Results

variable (s : RunState) (results : List WorkResult)

theorem foldl_withResult_eq : ∃ d, results.foldl withResult s = { s with results := d } := by
  induction results generalizing s with
  | nil => exact ⟨s.results, rfl⟩
  | cons r results ih =>
    obtain ⟨d, hd⟩ := ih (s.withResult r)
    exact ⟨d, hd⟩

theorem foldl_withResult_status (status : RunStatus) :
    results.foldl withResult { s with status } = { results.foldl withResult s with status } := by
  induction results generalizing s with
  | nil => rfl
  | cons r results ih => exact ih (s.withResult r)

@[simp] theorem foldl_withResult_workItems :
    (results.foldl withResult s).workItems = s.workItems := by
  obtain ⟨d, hd⟩ := foldl_withResult_eq s results
  rw [hd]

theorem get?_foldl_withResult (k : Text) :
    (∃ r ∈ results, r.workItemId = k ∧ (results.foldl withResult s).results.get? k = some r) ∨
      (∀ r ∈ results, r.workItemId ≠ k) ∧
        (results.foldl withResult s).results.get? k = s.results.get? k := by
  induction results generalizing s with
  | nil => exact .inr ⟨fun _ hr => absurd hr List.not_mem_nil, rfl⟩
  | cons r results ih =>
    rcases ih (s.withResult r) with ⟨r', hr', hk, hg⟩ | ⟨hn, hg⟩
    · exact .inl ⟨r', List.mem_cons_of_mem _ hr', hk, hg⟩
    · rw [withResult, Dict.get?_set] at hg
      by_cases hk : k = r.workItemId
      · rw [if_pos hk] at hg
        exact .inl ⟨r, List.mem_cons_self, hk.symm, hg⟩
      · rw [if_neg hk] at hg
        exact .inr ⟨List.forall_mem_cons.2 ⟨Ne.symm hk, hn⟩, hg⟩

variable {s results} {k : Text}

theorem isUnfinished_foldl (ht : ∀ r ∈ results, r.status.isResumable = false) :
    (results.foldl withResult s).isUnfinished k = true ↔
      s.isUnfinished k = true ∧ ∀ r ∈ results, r.workItemId ≠ k := by
  rcases get?_foldl_withResult s results k with ⟨r, hr, hk, hg⟩ | ⟨hn, hg⟩
  · have hf : (results.foldl withResult s).isUnfinished k = false := by
      simp [isUnfinished, hg, ht r hr]
    rw [hf]
    exact iff_of_false Bool.false_ne_true fun h => h.2 r hr hk
  · rw [isUnfinished, hg]
    exact (and_iff_left hn).symm

theorem hasSucceeded_foldl (hu : ∀ r ∈ results, s.isUnfinished r.workItemId = true)
    (h : s.hasSucceeded k = true) : (results.foldl withResult s).hasSucceeded k = true := by
  rcases get?_foldl_withResult s results k with ⟨r, hr, rfl, _⟩ | ⟨_, hg⟩
  · have := hu r hr
    rw [not_unfinished_of_succeeded h] at this
    cases this
  · rwa [hasSucceeded, hg]

theorem hasFailed_foldl (hu : ∀ r ∈ results, s.isUnfinished r.workItemId = true)
    (h : s.hasFailed k = true) : (results.foldl withResult s).hasFailed k = true := by
  rcases get?_foldl_withResult s results k with ⟨r, hr, rfl, _⟩ | ⟨_, hg⟩
  · have := hu r hr
    rw [not_unfinished_of_failed h] at this
    cases this
  · rwa [hasFailed, hg]

theorem isJustified_mono {s' : RunState}
    (hs : ∀ d, s.hasSucceeded d = true → s'.hasSucceeded d = true)
    (hf : ∀ d, s.hasFailed d = true → s'.hasFailed d = true) (h : s.isJustified item r = true) :
    s'.isJustified item r = true := by
  rw [isJustified.eq_def] at h ⊢
  split at h
  · exact List.all_eq_true.2 fun d hd => hs d (List.all_eq_true.1 h d hd)
  · exact List.all_eq_true.2 fun d hd => hs d (List.all_eq_true.1 h d hd)
  · obtain ⟨d, hd, hfd⟩ := List.any_eq_true.1 h
    exact List.any_eq_true.2 ⟨d, hd, hf d hfd⟩
  · rfl

theorem Ordered.withResults (h : s.Ordered)
    (hr : ∀ r ∈ results, s.isUnfinished r.workItemId = true ∧
      ∀ item, s.workItems.get? r.workItemId = some item → s.isJustified item r = true) :
    (results.foldl RunState.withResult s).Ordered := by
  have hs (d : Text) := hasSucceeded_foldl (k := d) fun r hm => (hr r hm).1
  have hf (d : Text) := hasFailed_foldl (k := d) fun r hm => (hr r hm).1
  have hw := foldl_withResult_workItems s results
  refine ⟨fun k item hk => h.ids k item (hw ▸ hk), fun k item hk => ?_, fun k item r hk hg => ?_⟩
  · rw [hw] at hk ⊢
    exact h.closed k item hk
  · rw [hw] at hk
    apply isJustified_mono hs hf
    rcases get?_foldl_withResult s results k with ⟨r', hr', hk', hg'⟩ | ⟨_, hg'⟩
    · rw [hg] at hg'
      cases hg'
      exact (hr r hr').2 item (hk' ▸ hk)
    · exact h.justified k item r hk (hg'.symm.trans hg)

end Results

section Blocking

variable {s : RunState}

theorem mem_newlyBlocked : item ∈ s.newlyBlocked ↔
    item ∈ s.pendingItems ∧ ∃ d ∈ item.dependencies, s.hasFailed d = true := by
  simp only [newlyBlocked, List.mem_filter, List.any_eq_true]

theorem blockAll_workItems (s : RunState) : s.blockAll.workItems = s.workItems :=
  foldl_withResult_workItems s _

theorem blockAll_eq (s : RunState) : ∃ d, s.blockAll = { s with results := d } :=
  foldl_withResult_eq s _

theorem isUnfinished_blockAll : s.blockAll.isUnfinished k = true ↔
    s.isUnfinished k = true ∧ ∀ item ∈ s.newlyBlocked, item.id ≠ k := by
  rw [blockAll, isUnfinished_foldl]
  · simp only [List.mem_map, forall_exists_index, and_imp, forall_apply_eq_imp_iff₂]
    rfl
  · intro r hr
    obtain ⟨item, _, rfl⟩ := List.mem_map.1 hr
    rfl

theorem Keyed.blocked_unfinished (h : s.Keyed) (hr : r ∈ s.newlyBlocked.map blockedResult) :
    s.isUnfinished r.workItemId = true := by
  obtain ⟨item, hi, rfl⟩ := List.mem_map.1 hr
  obtain ⟨k, hk, hu⟩ := mem_pendingItems.1 (mem_newlyBlocked.1 hi).1
  show s.isUnfinished item.id = true
  rwa [h k item hk]

theorem hasFailed_blockAll (h : s.Keyed) : s.blockAll.hasFailed k = true ↔
    s.hasFailed k = true ∨ ∃ item ∈ s.newlyBlocked, item.id = k := by
  constructor
  · intro hf
    rcases get?_foldl_withResult s (s.newlyBlocked.map blockedResult) k with
      ⟨r, hr, hk, _⟩ | ⟨_, hg⟩
    · obtain ⟨item, hi, rfl⟩ := List.mem_map.1 hr
      exact .inr ⟨item, hi, hk⟩
    · rw [blockAll, hasFailed, hg] at hf
      exact .inl hf
  · rintro (hf | ⟨item, hi, rfl⟩)
    · exact hasFailed_foldl (fun r hr => h.blocked_unfinished hr) hf
    · rcases get?_foldl_withResult s (s.newlyBlocked.map blockedResult) item.id with
        ⟨r, hr, _, hg⟩ | ⟨hn, _⟩
      · obtain ⟨item', _, rfl⟩ := List.mem_map.1 hr
        exact hasFailed_iff.2 ⟨_, hg, .inr rfl⟩
      · exact absurd rfl (hn _ (List.mem_map_of_mem hi))

theorem Ordered.blockAll (h : s.Ordered) : s.blockAll.Ordered := by
  apply h.withResults
  intro r hr
  refine ⟨Keyed.blocked_unfinished h.ids hr, fun item hk => ?_⟩
  obtain ⟨item', hi, rfl⟩ := List.mem_map.1 hr
  obtain ⟨hp, d, hd, hf⟩ := mem_newlyBlocked.1 hi
  obtain ⟨k, hk', _⟩ := mem_pendingItems.1 hp
  have hk : s.workItems.get? item'.id = some item := hk
  rw [h.ids k item' hk', hk'] at hk
  cases hk
  exact List.any_eq_true.2 ⟨d, hd, hf⟩

end Blocking

/-- The keys of the unfinished items. -/
def openKeys (s : RunState) : List Text := s.workItems.keys.filter s.isUnfinished

theorem openKeys_lt {s s' : RunState} (hw : s'.workItems = s.workItems)
    (hu : ∀ k, s'.isUnfinished k = true → s.isUnfinished k = true) (hk : k ∈ s.workItems.keys)
    (ho : s.isUnfinished k = true) (hf : s'.isUnfinished k = false) :
    s'.openKeys.length < s.openKeys.length := by
  have hsub : s'.openKeys.Sublist s.openKeys := by
    rw [openKeys, openKeys, hw]
    exact List.monotone_filter_right _ hu
  apply lt_of_le_of_ne hsub.length_le
  intro he
  have hm : k ∈ s'.openKeys := by
    rw [hsub.eq_of_length he]
    exact List.mem_filter.2 ⟨hk, ho⟩
  rw [(List.mem_filter.1 hm).2] at hf
  cases hf

theorem pendingItems_nil {s : RunState} (h : s.openKeys.length ≤ 0) : s.pendingItems = [] := by
  rw [List.eq_nil_iff_forall_not_mem]
  intro item hi
  obtain ⟨k, hk, hu⟩ := mem_pendingItems.1 hi
  have hm : k ∈ s.openKeys := List.mem_filter.2 ⟨Dict.mem_keys_of_get? hk, hu⟩
  rw [List.eq_nil_of_length_eq_zero (Nat.le_zero.1 h)] at hm
  cases hm

end RunState

open RunState

section Progress

variable {host : Host} {s s' : RunState}

theorem dispatchable_unfinished (hk : s.Keyed) (hd : item ∈ s.dispatchable host) :
    s.workItems.get? item.id = some item ∧ s.isUnfinished item.id = true := by
  obtain ⟨k, hg, hu⟩ := mem_pendingItems.1 (mem_dispatchable.1 hd).1
  rw [hk k item hg]
  exact ⟨hg, hu⟩

theorem dispatchTurn_of_dispatchable (hd : item ∈ s.dispatchable host) :
    ∃ t, dispatchTurn host s item = .ok t := by
  obtain ⟨_, _, ha⟩ := RunState.mem_dispatchable.1 hd
  obtain ⟨_, route, _, hr, _⟩ := requireDispatchable_ok ha
  rw [dispatchTurn, hr]
  exact ⟨_, rfl⟩

theorem Ended.final (h : Ended k r) : r.status.isResumable = false := by
  rcases h.2 with hs | hs <;> rw [hs] <;> rfl

/-- Some dispatchable item gets a result of its own, and nothing but that kind of results is new. -/
theorem openKeys_results (results : List WorkResult) (s' : RunState) (hk : s.Keyed)
    (hd : item ∈ s.blockAll.dispatchable host) (hi : ∃ r ∈ results, Ended item.id r)
    (hr : ∀ r ∈ results, ∃ k, Ended k r)
    (he : ∀ k, s'.isUnfinished k = (results.foldl withResult s.blockAll).isUnfinished k)
    (hw : s'.workItems = s.workItems) : s'.openKeys.length < s.openKeys.length := by
  have hfinal (r : WorkResult) (hm : r ∈ results) : r.status.isResumable = false :=
    (hr r hm).choose_spec.final
  have hkeyed : s.blockAll.Keyed := fun k item hg => hk k item (blockAll_workItems s ▸ hg)
  obtain ⟨hg, hu⟩ := dispatchable_unfinished hkeyed hd
  rw [blockAll_workItems] at hg
  apply openKeys_lt hw _ (Dict.mem_keys_of_get? hg) (isUnfinished_blockAll.1 hu).1
  · rw [he, Bool.eq_false_iff]
    intro hf
    obtain ⟨r, hm, hend⟩ := hi
    exact ((isUnfinished_foldl hfinal).1 hf).2 r hm hend.1
  · intro k hf
    rw [he] at hf
    exact (isUnfinished_blockAll.1 ((isUnfinished_foldl hfinal).1 hf).1).1

/-- The passes of a loop end with no item left, or with the one that found none to dispatch. -/
def EndsAt (host : Host) (states : List RunState) (s' : RunState) : Prop :=
  (s'.pendingItems = [] ∧ ∀ s₀ ∈ states, s₀.blockAll.dispatchable host ≠ []) ∨
    ∃ s₀ ∈ states, s₀.Keyed ∧ s₀.blockAll.dispatchable host = [] ∧ s' = s₀.blockAll ∧
      ∀ s₁ ∈ states, s₁.blockAll.dispatchable host = [] → s₁ = s₀

theorem EndsAt.later {states : List RunState} (h : EndsAt host states s')
    (hd : s.blockAll.dispatchable host ≠ []) : EndsAt host (s :: states) s' := by
  rcases h with ⟨hp, hall⟩ | ⟨s₀, hs, hk, hd₀, he, hall⟩
  · exact .inl ⟨hp, List.forall_mem_cons.2 ⟨hd, hall⟩⟩
  · refine .inr ⟨s₀, List.mem_cons_of_mem _ hs, hk, hd₀, he, List.forall_mem_cons.2 ⟨?_, hall⟩⟩
    exact fun hn => absurd hn hd

/-- A loop ends so when its bound allows a pass for every unfinished item. -/
theorem Passes.ends {maxRead n : Nat} {states : List RunState}
    (h : Passes host maxRead n s states s') (hm : 1 ≤ maxRead) (hk : s.Keyed)
    (hn : s.openKeys.length ≤ n) : EndsAt host states s' := by
  induction h with
  | spent s => exact .inl ⟨pendingItems_nil hn, fun _ hs => absurd hs List.not_mem_nil⟩
  | @idle s n hd =>
    exact .inr ⟨s, List.mem_singleton_self s, hk, hd, rfl, fun _ hs _ => List.mem_singleton.1 hs⟩
  | @writer item r n states s' s hf hr _ ih =>
    have hd := List.mem_of_find?_eq_some hf
    have hkeyed : ({ s.blockAll with status := .running }.withResult r).Keyed :=
      fun k item hg => hk k item (blockAll_workItems s ▸ hg)
    have hlt := openKeys_results [r] ({ s.blockAll with status := .running }.withResult r) hk hd
      ⟨r, List.mem_cons_self, hr⟩ (fun r' hm => ⟨item.id, List.mem_singleton.1 hm ▸ hr⟩)
      (fun _ => rfl) (blockAll_workItems s)
    exact (ih hkeyed (by omega)).later (List.ne_nil_of_mem hd)
  | @readers results n states s' s hne _ hr _ ih =>
    obtain ⟨item, items, he⟩ := List.exists_cons_of_ne_nil hne
    have hd : item ∈ s.blockAll.dispatchable host := he ▸ List.mem_cons_self
    have hi : item ∈ (s.blockAll.dispatchable host).take maxRead := by
      rw [he]
      exact List.mem_take_iff_getElem.2 ⟨0, by simp; omega, rfl⟩
    have hw := foldl_withResult_workItems { s.blockAll with status := .running } results
    have hkeyed : (results.foldl withResult { s.blockAll with status := .running }).Keyed :=
      fun k item hg => hk k item (blockAll_workItems s ▸ hw ▸ hg)
    have hends (r : WorkResult) (hm : r ∈ results) : ∃ k, Ended k r := by
      obtain ⟨item, _, he⟩ := hr.of_result hm
      exact ⟨item.id, he⟩
    have hlt := openKeys_results results
      (results.foldl withResult { s.blockAll with status := .running }) hk hd (hr.of_item hi) hends
      (fun k => by rw [foldl_withResult_status]; rfl) (hw.trans (blockAll_workItems s))
    exact (ih hkeyed (by omega)).later hne

theorem Passes.dispatchable_nil {maxRead n : Nat} {states : List RunState}
    (h : Passes host maxRead n s states s') (hm : 1 ≤ maxRead) (hk : s.Keyed)
    (hn : s.openKeys.length ≤ n) : s'.dispatchable host = [] := by
  rcases h.ends hm hk hn with ⟨hp, _⟩ | ⟨s₀, _, _, hd, rfl, _⟩
  · rw [dispatchable, hp]
    rfl
  · exact hd

theorem openKeys_length_le (s : RunState) : s.openKeys.length ≤ s.workItems.size := by
  rw [openKeys, ← Dict.length_keys]
  exact List.length_filter_le _ _

theorem RunState.Ordered.dispatched (h : s.Ordered) (results : List WorkResult)
    (hr : ∀ r ∈ results, ∃ item ∈ s.dispatchable host, Ended item.id r) :
    (results.foldl RunState.withResult s).Ordered := by
  apply h.withResults
  intro r hm
  obtain ⟨item, hd, he⟩ := hr r hm
  obtain ⟨hg, hu⟩ := dispatchable_unfinished h.ids hd
  rw [he.1]
  refine ⟨hu, fun item' hg' => ?_⟩
  rw [hg] at hg'
  cases hg'
  have hs := List.all_eq_true.2 (mem_dispatchable.1 hd).2.1
  rw [isJustified]
  rcases he.2 with he | he <;> rw [he] <;> exact hs

/-- What blocking, a status and the results of dispatchable items keep, the loop keeps. -/
theorem Passes.keeps {I : RunState → Prop} {maxRead n : Nat} {states : List RunState}
    (h : Passes host maxRead n s states s') (hb : ∀ {s}, I s → I s.blockAll)
    (hs : ∀ {s : RunState}, I s → I { s with status := .running })
    (hr : ∀ {s : RunState} (results : List WorkResult), I s →
      (∀ r ∈ results, ∃ item ∈ s.dispatchable host, Ended item.id r) →
        I (results.foldl withResult s)) (hi : I s) : I s' := by
  induction h with
  | spent => exact hi
  | idle => exact hb hi
  | @writer item r _ _ _ s hf he _ ih =>
    have hd := List.mem_of_find?_eq_some hf
    apply ih
    apply hr [r] (hs (hb hi))
    intro r' hm
    rw [List.mem_singleton.1 hm]
    exact ⟨item, hd, he⟩
  | readers _ _ he _ ih =>
    apply ih
    apply hr _ (hs (hb hi))
    intro r hm
    obtain ⟨item, hi, he⟩ := he.of_result hm
    exact ⟨item, List.mem_of_mem_take hi, he⟩

theorem Passes.ordered {maxRead n : Nat} {states : List RunState}
    (h : Passes host maxRead n s states s') (ho : s.Ordered) : s'.Ordered :=
  h.keeps RunState.Ordered.blockAll (fun ho => ⟨ho.ids, ho.closed, ho.justified⟩)
    (fun results ho => ho.dispatched results) ho

/-- The turn that a call starts. -/
def Event.started? : Event → Option Turn
  | .answered (.startTurn t) _ => some t
  | _ => none

/-- The turns started so far, newest first. -/
def World.started (w : World) : List Turn := w.log.filterMap Event.started?

/-- Where nothing is left to block, failures have spread to all that depends on them. -/
theorem RunState.Ordered.blocked (h : s.Ordered) (hn : s.newlyBlocked = [])
    (hd : s.DependsOn k d) (hf : s.hasFailed d = true) :
    ∃ r, s.results.get? k = some r ∧ r.status = .blocked := by
  have direct {k d : Text} {item : WorkItem} (hk : s.workItems.get? k = some item)
      (hd : d ∈ item.dependencies) (hf : s.hasFailed d = true) :
      ∃ r, s.results.get? k = some r ∧ r.status = .blocked := by
    have hu : s.isUnfinished k ≠ true := by
      intro hu
      have hm := mem_newlyBlocked.2 ⟨mem_pendingItems.2 ⟨k, hk, hu⟩, d, hd, hf⟩
      rw [hn] at hm
      cases hm
    rw [Ne, isUnfinished_iff] at hu
    push Not at hu
    obtain ⟨r, hr, hs⟩ := hu
    have hj := h.justified k item r hk hr
    have hno : item.dependencies.all s.hasSucceeded = true → False := by
      intro hall
      obtain ⟨r', hr', hs'⟩ := hasSucceeded_iff.1 (List.all_eq_true.1 hall d hd)
      obtain ⟨r'', hr'', hs''⟩ := hasFailed_iff.1 hf
      rw [hr'] at hr''
      cases hr''
      rw [hs'] at hs''
      rcases hs'' with hs'' | hs'' <;> cases hs''
    refine ⟨r, hr, ?_⟩
    rw [isJustified] at hj
    cases hst : r.status with
    | blocked => rfl
    | succeeded | failed =>
      rw [hst] at hj
      exact absurd hj hno
    | pending | awaitingApproval | running =>
      rw [hst] at hs
      exact absurd rfl hs
  induction hd using Relation.TransGen.head_induction_on with
  | single hs =>
    obtain ⟨item, hk, hd⟩ := mem_dependenciesOf.1 hs
    exact direct hk hd hf
  | head hs _ ih =>
    obtain ⟨item, hk, hd⟩ := mem_dependenciesOf.1 hs
    obtain ⟨r, hr, hb⟩ := ih
    exact direct hk hd (hasFailed_iff.2 ⟨r, hr, .inr hb⟩)

theorem finalStatus_status (s : RunState) (status : RunStatus) :
    { s with status }.finalStatus host = s.finalStatus host := by
  have ha (items : List WorkItem) :
      { s with status }.awaitsApproval host items = s.awaitsApproval host items := by
    induction items with
    | nil => rfl
    | cons item items ih => rw [awaitsApproval, awaitsApproval, ih]
  rw [finalStatus, finalStatus, ha]

theorem conclude_within {passed : List RunState} (hw : w.passed = passed) (s : RunState) :
    Within host passed (fun s' => ∃ status, s.finalStatus host = .ok status ∧
      s' = { s with status }) (conclude host s) w := by
  apply (note_within hw rfl).bind
  rintro _ w₁ ⟨h₁, _⟩
  apply (ofExcept_within h₁ _).bind
  rintro status w₂ ⟨h₂, hs⟩
  split
  · rename_i he
    exact ⟨h₂, status, hs, he ▸ rfl⟩
  · apply (saveRun_within h₂ _).bind
    rintro _ w₃ ⟨h₃, _⟩
    exact ⟨h₃, status, hs, rfl⟩

/-- Whenever `run_ready` returns, its loop has made passes, and the status is what they led to. -/
theorem runReady_passes (maxRead : Nat) (s : RunState) (w : World) :
    (runReady host maxRead s).Safe (Next host) (fun _ => True) (fun s' w' => ∃ states s₁,
      Passes host maxRead s.workItems.size s states s₁ ∧ w'.passed = states.reverse ++ w.passed ∧
        ∃ status, s₁.finalStatus host = .ok status ∧ s' = { s₁ with status })
      (fun _ _ => True) w := by
  apply (runLoop_passes maxRead _ s w).bind
  rintro s₁ w₁ ⟨states, hp, hw⟩
  apply (conclude_within hw s₁).mono
  · rintro s' w' ⟨hw', hs⟩
    exact ⟨states, s₁, hp, hw', hs⟩
  · exact fun _ _ h => h

/-- A run with nothing to block and nothing to dispatch is left as it is, and no turn is started. -/
theorem runReady_idle {maxRead : Nat} (hn : s.newlyBlocked = []) (hd : s.dispatchable host = [])
    (hf : s.finalStatus host = .ok s.status) (w : World) :
    (runReady host maxRead s).Safe (Next host) (fun w' => w'.started = w.started)
      (fun s' w' => s' = s ∧ w'.started = w.started) (fun _ _ => True) w := by
  have hnote {n : Note} {w₁ : World} (h₁ : w₁.started = w.started) :
      (note n).Safe (Next host) (fun w' => w'.started = w.started)
        (fun _ w' => w'.started = w.started) (fun _ _ => True) w₁ := by
    apply Prog.Safe.invoke
    intro r w' hx
    have hs : w'.started = w.started := by cases hx <;> exact h₁
    cases r with
    | ok => exact ⟨hs, hs⟩
    | error => exact ⟨hs, trivial⟩
  apply Prog.Safe.bind (Q := fun s' w' => s' = s ∧ w'.started = w.started)
  · cases s.workItems.size with
    | zero => exact ⟨rfl, rfl⟩
    | succ n =>
      rw [runLoop, hn]
      apply (hnote rfl).bind
      intro _ w₁ h₁
      simp only [persistBlocked, List.foldlM_nil, pure_bind, hd, if_pos]
      exact ⟨rfl, h₁⟩
  · rintro s' w₁ ⟨rfl, h₁⟩
    apply (hnote h₁).bind
    intro _ w₂ h₂
    apply Prog.Safe.bind (Q := fun status w' => status = s'.status ∧ w'.started = w.started)
    · apply Prog.Safe.ofExcept
      · intro status hs
        rw [hf] at hs
        cases hs
        exact ⟨rfl, h₂⟩
      · exact fun _ _ => trivial
    · rintro status w₃ ⟨rfl, h₃⟩
      rw [if_pos rfl]
      exact ⟨rfl, h₃⟩

/-- What holds once `run_ready` has done what it can for a run. -/
structure Settled (host : Host) (maxRead : Nat) (s s' : RunState) : Prop where
  blocked : ∀ item ∈ s'.pendingItems, ∀ d ∈ item.dependencies, s'.hasFailed d = false
  spread : s.Ordered → ∀ k d, s'.DependsOn k d → s'.hasFailed d = true →
    ∃ r, s'.results.get? k = some r ∧ r.status = .blocked
  idle : s'.dispatchable host = []
  again : ∀ w q w', Prog.Steps (Next host) (runReady host maxRead s') w q w' →
    w'.started = w.started ∧ ∀ s'', q = .pure s'' → s'' = s'

theorem newlyBlocked_nil : s.newlyBlocked = [] ↔
    ∀ item ∈ s.pendingItems, ∀ d ∈ item.dependencies, s.hasFailed d = false := by
  rw [List.eq_nil_iff_forall_not_mem]
  constructor
  · intro h item hp d hd
    rw [Bool.eq_false_iff]
    exact fun hf => h item (mem_newlyBlocked.2 ⟨hp, d, hd, hf⟩)
  · intro h item hm
    obtain ⟨hp, d, hd, hf⟩ := mem_newlyBlocked.1 hm
    rw [h item hp d hd] at hf
    cases hf

/-- Where `run_ready` returns, the run has settled just where nothing is left to block. -/
theorem runReady_settled {maxRead : Nat} {w w' : World} (hm : 1 ≤ maxRead) (hk : s.Keyed)
    (h : Prog.Steps (Next host) (runReady host maxRead s) w (.pure s') w') :
    Settled host maxRead s s' ↔ s'.newlyBlocked = [] := by
  obtain ⟨_, states, s₁, hp, _, status, hf, rfl⟩ :=
    (runReady_passes maxRead s w).returns trivial h
  have hd := hp.dispatchable_nil hm hk (openKeys_length_le s)
  have hf' : { s₁ with status }.finalStatus host = .ok status :=
    (finalStatus_status s₁ status).trans hf
  rw [newlyBlocked_nil]
  constructor
  · exact fun hs => hs.blocked
  · intro hb
    refine ⟨hb, fun ho k d hkd hd => ?_, hd, fun w q w' hs => ?_⟩
    · exact (hp.ordered ho).blocked (newlyBlocked_nil.2 hb) hkd hd
    · have hn : { s₁ with status }.newlyBlocked = [] := newlyBlocked_nil.2 hb
      obtain ⟨hst, hq⟩ := (runReady_idle hn hd hf' w).steps rfl hs
      refine ⟨hst, ?_⟩
      rintro s'' rfl
      exact hq.1

end Progress

/-- A new run with the items `a`, `b` and `c`, each but the first depending on the one before. -/
def chainState : RunState where
  schemaVersion := 1
  configurationDigest := text "digest"
  objective := ⟨text "run", text "Do it", samplePath, none, samplePath,
    (sampleScript singlePlan []).time⟩
  repository := (sampleScript singlePlan []).repository
  workItems := Dict.ofList [
    (text "a", singleItem),
    (text "b", { singleItem with id := text "b", dependencies := [text "a"] }),
    (text "c", { singleItem with id := text "c", dependencies := [text "b"] })]
  routes := Dict.ofList (["a", "b", "c"].map fun id =>
    (text id, { singleDecision with approval := .automatic }))
  results := ∅
  approvals := ∅
  status := .planned

theorem chainState_keyed : chainState.Keyed := by
  intro k item hk
  have hall : ∀ e ∈ chainState.workItems.entries, e.2.id = e.1 := by decide
  exact hall (k, item) (Dict.mem_entries.2 hk)

theorem chainState_isAcyclic : chainState.IsAcyclic := by
  refine ⟨[text "c", text "b", text "a"], ?_, by decide, fun k => ?_⟩
  · exact .cons (.cons (.cons .nil (by decide)) (by decide)) (by decide)
  · have hk : chainState.workItems.keys = [text "a", text "b", text "c"] := by decide
    simp only [hk, List.mem_cons, List.not_mem_nil, or_false]
    tauto

/-- A run of `run_ready` in a scripted world. -/
def scriptedRun (host : Host) (script : Script) (s : RunState) : Program RunState × World :=
  (runReady host 2 s).exec (script.answer host) ⟨text "run", .snapshot (snapshotOf s), []⟩

theorem scriptedRun_steps {host : Host} {script : Script} {s s' : RunState}
    (h : (scriptedRun host script s).1.value? = some s') :
    Prog.Steps (Next host) (runReady host 2 s) ⟨text "run", .snapshot (snapshotOf s), []⟩
      (.pure s') (scriptedRun host script s).2 := by
  have ha (w : World) (c : Call) (r : Except PyError (Val c)) (w' : World)
      (hr : script.answer host w c = some (r, w')) : Next host w c r w' :=
    script.answer_next host hr
  rw [← Prog.value?_eq_some.1 h]
  exact Prog.exec_steps ha _ _

/-- When `a` fails, `b` is blocked and the loop ends, with `c` left to block. -/
theorem chain_unsettled :
    ¬∀ (host : Host) (maxRead : Nat) (s s' : RunState) (w w' : World), 1 ≤ maxRead → s.Keyed →
      s.IsAcyclic → Prog.Steps (Next host) (runReady host maxRead s) w (.pure s') w' →
        Settled host maxRead s s' := by
  intro h
  have hb : (scriptedRun sampleHost (sampleScript singlePlan []) chainState).1.value?.any
      (fun s' => s'.newlyBlocked ≠ []) = true := by decide +kernel
  obtain ⟨s', hs, hn⟩ := (Option.any_eq_true _ _).1 hb
  have hset := h _ _ _ _ _ _ (by decide) chainState_keyed chainState_isAcyclic
    (scriptedRun_steps hs)
  exact of_decide_eq_true hn (newlyBlocked_nil.2 hset.blocked)

end GoalRouter
