import GoalRouter.OperationRefinement
import GoalRouter.ScriptedWorld

namespace GoalRouter
open Library
set_option autoImplicit true

/-- Every terminal result of the first state is one of the second, and its route is kept too, up
to what a save redacts. -/
def RunState.Follows (s s₀ : RunState) : Prop :=
  ∀ k r, s₀.results.get? k = some r → r.status.isResumable = false →
    (∃ r', s.results.get? k = some r' ∧ r'.persisted = r.persisted) ∧
      (s.routes.get? k).map RouteDecision.persisted =
        (s₀.routes.get? k).map RouteDecision.persisted

/-- A state follows all that were persisted before it. -/
def FollowsAll (log : List Event) (s : RunState) : Prop :=
  ∀ s₀, .replaced s₀ ∈ log → s.Follows s₀

variable {host : Host} {s s₀ : RunState} {r : WorkResult}

namespace RunState

theorem Follows.refl (s : RunState) : s.Follows s := fun _ r hr _ => ⟨⟨r, hr, rfl⟩, rfl⟩

theorem Follows.finished (h : s.Follows s₀) (hr : s₀.results.get? k = some r)
    (ht : r.status.isResumable = false) : s.isUnfinished k = false := by
  obtain ⟨⟨r', hr', hp⟩, _⟩ := h k r hr ht
  have hs : r'.status = r.status := by rw [← r'.persisted_status, hp, r.persisted_status]
  rw [isUnfinished, hr', Option.map_some, Option.getD_some, hs]
  exact ht

theorem Follows.persisted (h : s.Follows s₀) : s.persisted.Follows s₀ := by
  intro k r hr ht
  obtain ⟨⟨r', hr', hp⟩, ho⟩ := h k r hr ht
  constructor
  · refine ⟨r'.persisted, ?_, ?_⟩
    · rw [RunState.persisted, get?_persistDict, hr']
      rfl
    · rw [WorkResult.persisted_idem, hp]
  · rw [RunState.persisted, get?_persistDict, optionMap_idem RouteDecision.persisted_idem]
    exact ho

theorem Follows.withRoutes (h : s.Follows s₀) {s' : RunState} (hr : s'.results = s.results)
    (ho : ∀ k, s'.routes.get? k = s.routes.get? k ∨ s.isUnfinished k = true) : s'.Follows s₀ := by
  intro k r hk ht
  obtain ⟨hres, hroute⟩ := h k r hk ht
  refine ⟨hr ▸ hres, ?_⟩
  rcases ho k with he | hu
  · rw [he]
    exact hroute
  · rw [h.finished hk ht] at hu
    cases hu

theorem Follows.withResult (h : s.Follows s₀)
    (hr : s.isUnfinished r.workItemId = true ∨
      ∀ r', s.results.get? r.workItemId = some r' → r.persisted = r'.persisted) :
    (s.withResult r).Follows s₀ := by
  intro k r₀ hk ht
  obtain ⟨⟨r', hr', hp⟩, ho⟩ := h k r₀ hk ht
  refine ⟨?_, ho⟩
  rw [RunState.withResult, Dict.get?_set]
  split
  · rename_i he
    subst he
    rcases hr with hu | hs
    · rw [h.finished hk ht] at hu
      cases hu
    · exact ⟨r, rfl, (hs r' hr').trans hp⟩
  · exact ⟨r', hr', hp⟩

end RunState

theorem blockedResult_congr {item item' : WorkItem} (h : item.id = item'.id) :
    blockedResult item = blockedResult item' := by
  rw [blockedResult, blockedResult, failureResult, failureResult, h]

theorem followsAll_invariant (host : Host) : ValidInvariant host FollowsAll where
  event he h s₀ hm := by
    rcases List.mem_cons.1 hm with hm | hm
    · exact absurd hm.symm (he s₀)
    · exact h s₀ hm
  landed _ h s₀ hm := by
    rcases List.mem_cons.1 hm with hm | hm
    · cases hm
      exact RunState.Follows.refl _
    · exact h s₀ hm
  fresh _ _ hn s₀ hm := absurd hm (hn s₀)
  loaded hv h hl s₀ hm := by
    rw [hv.load hl]
    exact (h s₀ hm).persisted
  approved _ _ _ _ h ha s₀ hm := by
    obtain ⟨_, _, _, _, _, _, _, _, _, _, rfl⟩ := approve_ok ha
    rcases List.mem_cons.1 hm with hm | hm
    · cases hm
    · exact h s₀ hm
  adopted _ _ _ h ha s₀ hm := by
    obtain ⟨_, rfl, hr⟩ := RunState.adoptCurrentConfiguration_ok ha
    rcases List.mem_cons.1 hm with hm | hm
    · cases hm
    · exact (h s₀ hm).withRoutes rfl fun k => (hr k).imp_right fun hu => hu.1
  blocked {_ s item} hv h hb s₀ hm := by
    apply (h s₀ hm).withResult
    obtain ⟨k, hk, hu, _⟩ := hb
    rcases hv.ids k item hk with he | he
    · exact .inl (by rw [← he] at hu; exact hu)
    · right
      intro r' hr'
      have hr : s.results.get? item.id = some r' := hr'
      rcases hv.results _ r' hr with hm | ⟨_, item', hi, hp⟩
      · exact absurd he (hv.keys _ hm).ne_redacted
      · rw [hp, blockedResult_congr (he.trans hi.symm)]
  finished _ h hf s₀ hm := by
    apply (h s₀ hm).withResult
    rw [hf.subject]
    exact .inl hf.unfinished
  statusSet _ h _ := h
  concluded _ h _ _ := h
  appended {_ s _} _ _ hv h _ _ hn _ s₀ hm := by
    refine (h s₀ hm).withRoutes (by rfl) fun k => ?_
    rw [RunState.withCompletion, Dict.get?_set]
    split
    · rename_i he
      right
      rw [he, hv.unfinished_iff]
      by_contra hr
      obtain ⟨r, hr⟩ := Option.ne_none_iff_exists'.1 hr
      rcases hv.results _ r hr with hm | ⟨he, _⟩
      · exact hn hm
      · exact absurd he (ItemId.ne_redacted (.inr rfl))
    · exact .inl rfl

/-- The item with the given id, or stored under it, is dispatched. -/
def Event.Dispatches (k : Text) : Event → Prop
  | .answered (.note (.dispatching s item)) _ => item.id = k ∨ s.workItems.get? k = some item
  | .answered (.startTurn t) _ => ∃ item, t.subject = .item item ∧ item.id = k
  | _ => False

theorem not_dispatches (hv : s.Valid) (hf : s.Follows s₀) (hr : s₀.results.get? k = some r)
    (ht : r.status.isResumable = false) (hd : item ∈ s.dispatchable host) :
    item.id ≠ k ∧ s.workItems.get? k ≠ some item := by
  obtain ⟨hi, hu⟩ := hv.dispatchable hd
  have hne : item.id ≠ k := by
    rintro rfl
    rw [hf.finished hr ht] at hu
    cases hu
  refine ⟨hne, fun hk => hne (hv.id_eq hk (Dict.mem_keys_of_get? hi))⟩

/-- Once a terminal result is persisted, its item is never dispatched again, and every state
persisted later keeps the result and the route as they were stored. -/
theorem terminal_result_kept (h : Reachable host w)
    (hl : w.log = later ++ .replaced s₀ :: earlier) (hr : s₀.results.get? k = some r)
    (ht : r.status ∈ [WorkStatus.succeeded, .failed, .blocked]) :
    (∀ e ∈ later, ¬e.Dispatches k) ∧ ∀ s, .replaced s ∈ later →
      (s.results.get? k).map WorkResult.persisted = some r.persisted ∧
        (s.routes.get? k).map RouteDecision.persisted =
          (s₀.routes.get? k).map RouteDecision.persisted := by
  obtain ⟨m, hw⟩ := h.alive
  have hres : r.status.isResumable = false := by
    cases hs : r.status <;> rw [hs] at ht <;> first | rfl | exact absurd ht (by decide)
  have hfollows {s : RunState} {w₀ : World} {before : List Event} (hw₀ : Lifecycle host (some s) w₀)
      (hlog : w₀.log = before ++ .replaced s₀ :: earlier) : s.Valid ∧ s.Follows s₀ := by
    obtain ⟨hv, hf⟩ := ((followsAll_invariant host).kept hw₀).memory s rfl
    exact ⟨hv, hf s₀ (by rw [hlog]; exact List.mem_append_right _ List.mem_cons_self)⟩
  constructor
  · intro e he hd
    obtain ⟨after, before, rfl⟩ := List.append_of_mem he
    rw [List.append_assoc, List.cons_append] at hl
    obtain ⟨w₀, hlog, ho⟩ := hw.origin hl
    cases e with
    | began | replaced => exact hd
    | answered c _ =>
      cases c with
      | note n =>
        cases n with
        | dispatching s item =>
          obtain ⟨hv, hf⟩ := hfollows ho.1 hlog
          obtain ⟨hne, hnk⟩ := not_dispatches hv hf hr hres ho.2
          exact hd.elim hne hnk
        | _ => exact hd
      | startTurn t =>
        obtain ⟨item, hi, hk⟩ := hd
        rcases ho with ⟨s, item', ho⟩ | ⟨app, objective, ho⟩
        · obtain ⟨hv, hf⟩ := hfollows ho.alive hlog
          have hs := (dispatchTurn_ok ho.turn).2
          rw [hi] at hs
          cases hs
          exact (not_dispatches hv hf hr hres ho.dispatchable).1 hk
        · rcases ho.subject with hs | hs <;> rw [hi] at hs <;> cases hs
      | _ => exact hd
  · intro s hs
    obtain ⟨after, before, rfl⟩ := List.append_of_mem hs
    rw [List.append_assoc, List.cons_append] at hl
    obtain ⟨w₀, hlog, ho⟩ := hw.origin hl
    rcases ho with ho | ⟨hd, ⟨m₀, hw₀⟩, _⟩
    · obtain ⟨⟨r', hr', hp⟩, hroute⟩ := (hfollows ho hlog).2 k r hr hres
      rw [hr', Option.map_some, hp]
      exact ⟨rfl, hroute⟩
    · have hn := ((followsAll_invariant host).kept hw₀).unsaved (by rw [hd]; exact nofun) s₀
      rw [hlog] at hn
      exact absurd (List.mem_append_right _ List.mem_cons_self) hn

def Event.persistsSuccess (k : Text) : Event → Bool
  | .replaced s => s.hasSucceeded k
  | _ => false

/-- A run whose only item succeeds keeps the result. -/
theorem terminal_result_kept_sample : ∃ w later s₀ earlier r,
    Reachable sampleHost w ∧ w.log = later ++ .replaced s₀ :: earlier ∧
      s₀.results.get? (text "a") = some r ∧
        (∀ e ∈ later, ¬e.Dispatches (text "a")) ∧ ∀ s, .replaced s ∈ later →
          (s.results.get? (text "a")).map WorkResult.persisted = some r.persisted ∧
            (s.routes.get? (text "a")).map RouteDecision.persisted =
              (s₀.routes.get? (text "a")).map RouteDecision.persisted := by
  have hw := (sampleScript singlePlan ["a"]).session_reachable plainApplication
    (.runObjective samplePath (text "Go") none) sampleWorld_reachable
  have hany : ((sampleScript singlePlan ["a"]).session plainApplication
      (.runObjective samplePath (text "Go") none) sampleWorld).log.any
        (Event.persistsSuccess (text "a")) = true := by decide +kernel
  obtain ⟨e, hm, he⟩ := List.any_eq_true.1 hany
  cases e with
  | began | answered => cases he
  | replaced s₀ =>
    obtain ⟨later, earlier, hl⟩ := List.append_of_mem hm
    obtain ⟨r, hr, hs⟩ := RunState.hasSucceeded_iff.1 he
    have ht : r.status ∈ [WorkStatus.succeeded, .failed, .blocked] := by
      rw [hs]
      decide
    exact ⟨_, later, s₀, earlier, r, hw, hl, hr, terminal_result_kept hw hl hr ht⟩

end GoalRouter
