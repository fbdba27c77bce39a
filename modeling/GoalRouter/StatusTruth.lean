import GoalRouter.SchedulerQuiescence

namespace GoalRouter
open Library
set_option autoImplicit true

namespace RunState

/-- An unfinished item that could run now but for a valid approval. -/
structure AwaitsApproval (host : Host) (s : RunState) (item : WorkItem) (route : RouteDecision) :
    Prop where
  pending : item ∈ s.pendingItems
  ready : ∀ d ∈ item.dependencies, s.hasSucceeded d = true
  routed : s.routes.get? item.id = some route
  required : route.approval = .required
  invalid : requireDispatchable host s item.id ≠ .ok ()

/-- The status of a run says what became of its items. -/
structure Truthful (host : Host) (s : RunState) : Prop where
  failed : s.status = .failed ↔ ∃ k r, s.results.get? k = some r ∧ r.status = .failed
  completed : s.status = .completed ↔ ∀ k ∈ s.workItems.keys, s.hasSucceeded k = true
  waiting : s.status ≠ .failed → s.status ≠ .completed →
    s.status = .awaitingApproval ∧ ∃ item route, s.AwaitsApproval host item route

/-- What the truth of a status rests on. -/
structure Settleable (s : RunState) : Prop where
  intact : s.Intact
  routes : ∀ k ∈ s.workItems.keys, k ∈ s.routes.keys
  terminal : ∀ k r, s.results.get? k = some r → r.status.isResumable = false

namespace Settleable

variable {s : RunState} {host : Host}

theorem unfinished_iff (h : s.Settleable) : s.isUnfinished k = true ↔ s.results.get? k = none := by
  rw [isUnfinished_iff]
  cases hr : s.results.get? k with
  | none => simp
  | some r => simp [h.terminal k r hr]

theorem congr {s' : RunState} (h : s.Settleable) (hw : s'.workItems = s.workItems)
    (hr : s'.results = s.results) (hd : s'.routes = s.routes) : s'.Settleable where
  intact := h.intact.congr hw hr
  routes := by rw [hw, hd]; exact h.routes
  terminal := by rw [hr]; exact h.terminal

theorem withResults (h : s.Settleable) {results : List WorkResult}
    (hr : ∀ r ∈ results, r.status.isResumable = false ∧ s.isUnfinished r.workItemId = true ∧
      ∃ item, s.workItems.get? r.workItemId = some item ∧ s.isJustified item r = true) :
    (results.foldl withResult s).Settleable := by
  have hordered : (results.foldl withResult s).Ordered := by
    apply h.intact.ordered.withResults
    intro r hm
    obtain ⟨_, hu, item, hg, hj⟩ := hr r hm
    refine ⟨hu, fun item' hg' => ?_⟩
    rw [hg] at hg'
    cases hg'
    exact hj
  have hresult (k : Text) (r : WorkResult)
      (hk : (results.foldl withResult s).results.get? k = some r) :
      k ∈ s.workItems.keys ∧ r.status.isResumable = false := by
    rcases get?_foldl_withResult s results k with ⟨r', hm, rfl, hg⟩ | ⟨_, hg⟩
    · rw [hk] at hg
      cases hg
      obtain ⟨ht, _, item, hi, _⟩ := hr r hm
      exact ⟨Dict.mem_keys_of_get? hi, ht⟩
    · rw [hk] at hg
      exact ⟨h.intact.results k (Dict.mem_keys_of_get? hg.symm), h.terminal k r hg.symm⟩
  obtain ⟨d, hd⟩ := foldl_withResult_eq s results
  rw [hd] at hordered hresult ⊢
  refine ⟨⟨hordered, h.intact.acyclic, fun k hk => ?_⟩, h.routes, fun k r hk => (hresult k r hk).2⟩
  obtain ⟨r, hk⟩ := Dict.mem_keys.1 hk
  exact (hresult k r hk).1

theorem blockAll (h : s.Settleable) : s.blockAll.Settleable := by
  apply h.withResults
  intro r hr
  have hids := h.intact.ordered.ids
  have hu := Keyed.blocked_unfinished hids hr
  obtain ⟨item, hi, rfl⟩ := List.mem_map.1 hr
  obtain ⟨hp, d, hd, hf⟩ := mem_newlyBlocked.1 hi
  obtain ⟨k, hk, _⟩ := mem_pendingItems.1 hp
  have hid := hids k item hk
  subst hid
  exact ⟨rfl, hu, item, hk, List.any_eq_true.2 ⟨d, hd, hf⟩⟩

theorem dispatched (h : s.Settleable) (results : List WorkResult)
    (hr : ∀ r ∈ results, ∃ item ∈ s.dispatchable host, Ended item.id r) :
    (results.foldl withResult s).Settleable := by
  apply h.withResults
  intro r hm
  obtain ⟨item, hd, he⟩ := hr r hm
  obtain ⟨hg, hu⟩ := dispatchable_unfinished h.intact.ordered.ids hd
  have hs := List.all_eq_true.2 (mem_dispatchable.1 hd).2.1
  rw [he.1]
  refine ⟨he.final, hu, item, hg, ?_⟩
  rw [isJustified]
  rcases he.2 with he | he <;> rw [he] <;> exact hs

theorem failed_of_blocked (h : s.Settleable) (hr : s.results.get? k = some r)
    (hb : r.status = .blocked) : ∃ k r, s.results.get? k = some r ∧ r.status = .failed := by
  by_contra hn
  obtain ⟨order, ht, _, hm⟩ := h.intact.acyclic
  have hk : k ∈ order := (hm k).2 (h.intact.results k (Dict.mem_keys_of_get? hr))
  obtain ⟨k, hk, ⟨r, hr, hb⟩, hmin⟩ := ht.exists_minimal
    (P := fun k => ∃ r, s.results.get? k = some r ∧ r.status = .blocked) ⟨k, hk, r, hr, hb⟩
  obtain ⟨item, hi⟩ := Dict.mem_keys.1 ((hm k).1 hk)
  have hj := h.intact.ordered.justified k item r hi hr
  rw [isJustified, hb] at hj
  obtain ⟨d, hd, hf⟩ := List.any_eq_true.1 hj
  obtain ⟨r', hr', hs⟩ := hasFailed_iff.1 hf
  rcases hs with hs | hs
  · exact hn ⟨d, r', hr', hs⟩
  · exact hmin d (mem_dependenciesOf.2 ⟨item, hi, hd⟩) ⟨r', hr', hs⟩

/-- Where nothing can be dispatched and nothing has failed, but something is left, something is
ready and waits for an approval. -/
theorem awaits (h : s.Settleable) (hd : s.dispatchable host = []) (hk : k ∈ s.workItems.keys)
    (hu : s.isUnfinished k = true)
    (hs : ∀ k r, s.results.get? k = some r → r.status = .succeeded) :
    ∃ item route, s.AwaitsApproval host item route := by
  obtain ⟨order, ht, _, hm⟩ := h.intact.acyclic
  obtain ⟨k, hk, hu, hmin⟩ := ht.exists_minimal (P := fun k => s.isUnfinished k = true)
    ⟨k, (hm k).2 hk, hu⟩
  obtain ⟨item, hi⟩ := Dict.mem_keys.1 ((hm k).1 hk)
  have hid := h.intact.ordered.ids k item hi
  subst hid
  obtain ⟨route, hr⟩ := Dict.mem_keys.1 (h.routes _ ((hm _).1 hk))
  have hp : item ∈ s.pendingItems := mem_pendingItems.2 ⟨_, hi, hu⟩
  have hready : ∀ d ∈ item.dependencies, s.hasSucceeded d = true := by
    intro d hd
    have hf := hmin d (mem_dependenciesOf.2 ⟨item, hi, hd⟩)
    rw [h.unfinished_iff] at hf
    obtain ⟨r, hr⟩ := Option.ne_none_iff_exists'.1 hf
    exact hasSucceeded_iff.2 ⟨r, hr, hs d r hr⟩
  have hinvalid : requireDispatchable host s item.id ≠ .ok () := by
    intro hok
    have hm := mem_dispatchable.2 ⟨hp, hready, hok⟩
    rw [hd] at hm
    cases hm
  have hrequired : route.approval = .required := by
    cases ha : route.approval with
    | required => rfl
    | automatic => exact absurd (requireDispatchable_automatic hi hr ha) hinvalid
  exact ⟨item, route, hp, hready, hr, hrequired, hinvalid⟩

end Settleable

/-- Where no item is found to wait, none that has no result is routed to an approval. -/
theorem awaitsApproval_false {s : RunState} {items : List WorkItem} {route : RouteDecision}
    (h : s.awaitsApproval host items = .ok false) (hi : item ∈ items)
    (hn : s.results.get? item.id = none) (hr : s.routes.get? item.id = some route) :
    route.approval ≠ .required := by
  induction items with
  | nil => cases hi
  | cons item' items ih =>
    rw [awaitsApproval] at h
    rcases List.mem_cons.1 hi with rfl | hi
    · rw [hn, hr] at h
      simp only [Option.isSome_none, Bool.false_eq_true, if_false] at h
      intro ha
      rw [if_pos ha] at h
      cases h
    · split at h
      · exact ih h hi
      · split at h
        · cases h
        · split at h
          · cases h
          · exact ih h hi

theorem mem_statuses {s : RunState} {status : WorkStatus} :
    status ∈ s.results.values.map WorkResult.status ↔
      ∃ k r, s.results.get? k = some r ∧ r.status = status := by
  rw [List.mem_map]
  constructor
  · intro ⟨r, hr, hs⟩
    obtain ⟨k, hk⟩ := Dict.mem_values.1 hr
    exact ⟨k, r, hk, hs⟩
  · intro ⟨k, r, hk, hs⟩
    exact ⟨r, Dict.mem_values.2 ⟨k, hk⟩, hs⟩

theorem Settleable.truthful {s : RunState} {status : RunStatus} (h : s.Settleable)
    (hd : s.dispatchable host = []) (hf : s.finalStatus host = .ok status) :
    { s with status }.Truthful host := by
  have hsome (hall : ∀ k ∈ s.workItems.keys, s.hasSucceeded k = true) (k : Text) (r : WorkResult)
      (hr : s.results.get? k = some r) : r.status = .succeeded := by
    obtain ⟨r', hr', hs⟩ := hasSucceeded_iff.1
      (hall k (h.intact.results k (Dict.mem_keys_of_get? hr)))
    rw [hr] at hr'
    cases hr'
    exact hs
  rw [finalStatus] at hf
  by_cases hfail : .failed ∈ s.results.values.map WorkResult.status
  · rw [if_pos hfail] at hf
    rw [mem_statuses] at hfail
    cases hf
    refine ⟨iff_of_true rfl hfail, iff_of_false (fun he => by cases he) fun hall => ?_,
      fun hn => absurd rfl hn⟩
    obtain ⟨k, r, hr, hs⟩ := hfail
    rw [hsome hall k r hr] at hs
    cases hs
  · rw [if_neg hfail] at hf
    rw [mem_statuses] at hfail
    have hblock : .blocked ∉ s.results.values.map WorkResult.status := by
      rw [mem_statuses]
      rintro ⟨_, _, hr, hb⟩
      exact hfail (h.failed_of_blocked hr hb)
    rw [if_neg hblock] at hf
    rw [mem_statuses] at hblock
    have hs (k : Text) (r : WorkResult) (hr : s.results.get? k = some r) :
        r.status = .succeeded := by
      have ht := h.terminal k r hr
      cases hst : r.status with
      | succeeded => rfl
      | failed => exact absurd ⟨k, r, hr, hst⟩ hfail
      | blocked => exact absurd ⟨k, r, hr, hst⟩ hblock
      | pending | awaitingApproval | running => rw [hst] at ht; cases ht
    by_cases hc : s.results.size = s.workItems.size
    · have hall : ∀ k ∈ s.workItems.keys, s.hasSucceeded k = true := by
        intro k hk
        obtain ⟨r, hr⟩ := Dict.mem_keys.1 (Dict.mem_keys_of_size_eq h.intact.results hc hk)
        exact hasSucceeded_iff.2 ⟨r, hr, hs k r hr⟩
      have hstatuses : ∀ st ∈ s.results.values.map WorkResult.status, st = .succeeded := by
        intro st hm
        obtain ⟨k, r, hr, rfl⟩ := mem_statuses.1 hm
        exact hs k r hr
      rw [if_pos ⟨hc, hstatuses⟩] at hf
      cases hf
      exact ⟨iff_of_false (fun he => by cases he) hfail, iff_of_true rfl hall,
        fun _ hn => absurd rfl hn⟩
    · rw [if_neg fun hc' => hc hc'.1] at hf
      obtain ⟨k, hk, hu⟩ : ∃ k ∈ s.workItems.keys, s.isUnfinished k = true := by
        by_contra hn
        push Not at hn
        apply hc
        apply Dict.size_eq_of_keys
        refine fun k => ⟨h.intact.results k, fun hk => ?_⟩
        have hr := hn k hk
        rw [Ne, h.unfinished_iff, Dict.get?_eq_none, not_not] at hr
        exact hr
      obtain ⟨item, route, hw⟩ := h.awaits hd hk hu hs
      have hstatus : status = .awaitingApproval := by
        obtain ⟨j, hj, hju⟩ := mem_pendingItems.1 hw.pending
        have hid := h.intact.ordered.ids j item hj
        subst hid
        cases ha : s.awaitsApproval host s.workItems.values with
        | error e => rw [ha] at hf; cases hf
        | ok b =>
          rw [ha] at hf
          cases b with
          | true => cases hf; rfl
          | false =>
            have hi := Dict.mem_values.2 ⟨_, hj⟩
            exact absurd hw.required (awaitsApproval_false ha hi (h.unfinished_iff.1 hju) hw.routed)
      subst hstatus
      refine ⟨iff_of_false (fun he => by cases he) hfail,
        iff_of_false (fun he => by cases he) fun hall => ?_, fun _ _ => ?_⟩
      · have hn : s.isUnfinished k = false := not_unfinished_of_succeeded (hall k hk)
        rw [hu] at hn
        cases hn
      · exact ⟨rfl, item, route, hw.pending, hw.ready, hw.routed, hw.required, hw.invalid⟩

end RunState

theorem Reachable.settleable (h : Reachable host w) (he : e ∈ w.log) (hs : e.state? = some s)
    (hk : s.Keyed) : s.Settleable := by
  obtain ⟨_, hw⟩ := h.alive
  obtain ⟨hv, hi⟩ := (intact_invariant host).of_event hw he hs
  exact ⟨hi hk, fun k hm => (hv.routes k).2 hm, hv.terminal⟩

/-- As long as the items of a run bear their ids, `run_ready` leaves a truthful status whenever it
returns, from whatever state of the run's history. -/
theorem runReady_truthful {maxRead : Nat} {w₁ w₂ : World} (h : Reachable host w) (he : e ∈ w.log)
    (hs : e.state? = some s) (hk : s.Keyed) (hm : 1 ≤ maxRead)
    (hr : Prog.Steps (Next host) (runReady host maxRead s) w₁ (.pure s') w₂) :
    s'.Truthful host := by
  obtain ⟨_, states, s₁, hp, _, status, hf, rfl⟩ :=
    (runReady_passes maxRead s w₁).returns trivial hr
  have hsettle : s₁.Settleable := hp.keeps (fun h => h.blockAll) (fun h => h.congr rfl rfl rfl)
    (fun results h => h.dispatched results) (h.settleable he hs hk)
  exact hsettle.truthful (hp.dispatchable_nil hm hk (openKeys_length_le s)) hf

/-- An item of the review task whose id is shaped like a secret, and one that depends on it. -/
def mixedPlan : Json := .obj [(text "work-items", .arr [
  .obj [
    (text "id", .str (text "sk-abcdef")),
    (text "title", .str (text "Title")),
    (text "instructions", .str (text "Do it")),
    (text "task", .str (text "review")),
    (text "phase", .str (text "one")),
    (text "dependencies", .arr []),
    (text "access", .str (text "read-only")),
    (text "affected-paths", .arr []),
    (text "expected-result", .str (text "Done")),
    (text "verification", .arr [.str (text "Look")]),
    (text "confidence", .int 1),
    (text "risk-flags", .arr [])],
  sampleItem "a" "read-only" ["sk-abcdef"]])]

def mixedHost : Host :=
  { sampleHost with
    loads := fun t =>
      if t = renderJson mixedPlan then .ok mixedPlan
      else .error (text "Expecting value: line 1 column 1 (char 0)") }

/-- An application where work requires approval and reviews do not. -/
def mixedApplication : Application mixedHost :=
  ⟨⟨sampleConfig .automatic .required .readOnly, samplePath,
    sampleYaml .automatic .required .readOnly, text "digest", by decide +kernel⟩, samplePath⟩

/-- The history of a run that was planned and is read back. -/
def mixedWorld : World :=
  (sampleScript mixedPlan []).session mixedApplication (.status (text "run"))
    ((sampleScript mixedPlan []).session mixedApplication
      (.planObjective samplePath (text "Go") none) sampleWorld)

theorem mixedWorld_reachable : Reachable mixedHost mixedWorld :=
  (sampleScript mixedPlan []).session_reachable mixedApplication _
    ((sampleScript mixedPlan []).session_reachable mixedApplication _ sampleWorld_reachable)

/-- The item that waits for approval depends on the other, whose id no longer names it. -/
theorem redacted_item_untruthful :
    ¬∀ (host : Host) (w w₁ w₂ : World) (e : Event) (s s' : RunState) (maxRead : Nat),
      Reachable host w → e ∈ w.log → e.state? = some s →
        (∀ k r, s.results.get? k = some r → r.status.isResumable = false) → 1 ≤ maxRead →
          Prog.Steps (Next host) (runReady host maxRead s) w₁ (.pure s') w₂ →
            s'.Truthful host := by
  intro h
  have hb : (mixedWorld.log.filterMap Event.state?).any (fun s => s.results.entries = [] &&
      ((scriptedRun mixedHost (sampleScript mixedPlan []) s).1.value?.any fun s' =>
        s'.status = .awaitingApproval && s'.pendingItems.all fun item =>
          !(item.dependencies.all s'.hasSucceeded &&
            (s'.routes.get? item.id).any fun route => route.approval = .required))) = true := by
    decide +kernel
  obtain ⟨s, hm, hb⟩ := List.any_eq_true.1 hb
  obtain ⟨e, he, hs⟩ := List.mem_filterMap.1 hm
  obtain ⟨hn, hb⟩ := Bool.and_eq_true_iff.1 hb
  obtain ⟨s', hv, hb⟩ := (Option.any_eq_true _ _).1 hb
  obtain ⟨hstatus, hb⟩ := Bool.and_eq_true_iff.1 hb
  have hterminal (k : Text) (r : WorkResult) (hr : s.results.get? k = some r) :
      r.status.isResumable = false := by
    have hm := Dict.mem_entries.2 hr
    rw [of_decide_eq_true hn] at hm
    cases hm
  have ht := h mixedHost mixedWorld _ _ e s s' 2 mixedWorld_reachable he hs hterminal (by decide)
    (scriptedRun_steps hv)
  have hstatus : s'.status = .awaitingApproval := of_decide_eq_true hstatus
  obtain ⟨_, item, route, hw⟩ := ht.waiting (by rw [hstatus]; nofun) (by rw [hstatus]; nofun)
  have hitem := List.all_eq_true.1 hb item hw.pending
  rw [List.all_eq_true.2 hw.ready, hw.routed] at hitem
  simp [hw.required] at hitem

/-- Read back as planned and run, the chain whose first item succeeds ends failed, truthfully. -/
theorem dependent_run_truthful : ∃ s s' w w',
    s ∈ dependentRun.log.filterMap Event.state? ∧ s.status = .planned ∧
      Prog.Steps (Next sampleHost) (runReady sampleHost 2 s) w (.pure s') w' ∧
        s'.status = .failed ∧ s'.Truthful sampleHost := by
  have hb : (dependentRun.log.filterMap Event.state?).any (fun s =>
      s.workItems.entries.all (fun e => e.2.id = e.1) && s.status = .planned &&
        (scriptedRun sampleHost (sampleScript dependentPlan ["a"]) s).1.value?.any
          (·.status = .failed)) = true := by
    decide +kernel
  obtain ⟨s, hm, hb⟩ := List.any_eq_true.1 hb
  obtain ⟨e, he, hs⟩ := List.mem_filterMap.1 hm
  obtain ⟨hb, hv⟩ := Bool.and_eq_true_iff.1 hb
  obtain ⟨hk, hplanned⟩ := Bool.and_eq_true_iff.1 hb
  obtain ⟨s', hv, hfailed⟩ := (Option.any_eq_true _ _).1 hv
  have hkeyed : s.Keyed := fun k item hg =>
    of_decide_eq_true (List.all_eq_true.1 hk (k, item) (Dict.mem_entries.2 hg))
  exact ⟨s, s', _, _, hm, of_decide_eq_true hplanned, scriptedRun_steps hv,
    of_decide_eq_true hfailed,
    runReady_truthful dependentRun_reachable he hs hkeyed (by decide) (scriptedRun_steps hv)⟩

end GoalRouter
