import GoalRouter.OperationRefinement
import GoalRouter.ScriptedWorld

namespace GoalRouter
open Library
set_option autoImplicit true

/-- A configuration other than that of the digest is adopted: a checkpoint bound to it is stored. -/
def Event.adopts (digest : Text) : Event → Bool
  | .replaced s => s.configurationDigest ≠ digest
  | _ => false

/-- The history goes back to an approval of the item as it is now, and no other configuration was
adopted since. -/
structure ApprovedSince (log since before : List Event) (s₀ s : RunState) (workItemId : Text)
    (item : WorkItem) (route : RouteDecision) : Prop where
  history : log = since ++ .answered (.note (.approved s₀ workItemId)) (.ok ()) :: before
  runId : s₀.runId = s.runId
  digest : s₀.configurationDigest = s.configurationDigest
  item₀ : s₀.workItems.get? workItemId = some item
  route₀ : s₀.routes.get? workItemId = some route
  item : s.workItems.get? workItemId = some item
  route : s.routes.get? workItemId = some route
  unadopted : ∀ e ∈ since, e.adopts s.configurationDigest = false

/-- What an approval names is stored as it is. -/
structure StoredAsIs (s : RunState) (item : WorkItem) (route : RouteDecision) : Prop where
  runId : persistText s.runId = s.runId
  digest : persistText s.configurationDigest = s.configurationDigest
  item : item.persisted = item
  route : route.persisted = route

def Grounded (log : List Event) (s : RunState) (workItemId : Text) : Prop :=
  ∃ since before s₀ item route, ApprovedSince log since before s₀ s workItemId item route ∧
    StoredAsIs s item route

/-- Every approval record of a state goes back to an approval. -/
def ApprovalsGrounded (log : List Event) (s : RunState) : Prop :=
  ∀ k ∈ s.approvals.keys, Grounded log s k

namespace Grounded

variable {s s' : RunState} {log : List Event}

theorem event (h : Grounded log s k) (he : e.adopts s.configurationDigest = false) :
    Grounded (e :: log) s k := by
  obtain ⟨since, before, s₀, item, route, ha, hs⟩ := h
  refine ⟨e :: since, before, s₀, item, route, ⟨?_, ha.runId, ha.digest, ha.item₀, ha.route₀,
    ha.item, ha.route, List.forall_mem_cons.2 ⟨he, ha.unadopted⟩⟩, hs⟩
  rw [ha.history, List.cons_append]

theorem congr (h : Grounded log s k) (hr : s'.runId = s.runId)
    (hd : s'.configurationDigest = s.configurationDigest)
    (hi : s'.workItems.get? k = s.workItems.get? k) (ho : s'.routes.get? k = s.routes.get? k) :
    Grounded log s' k := by
  obtain ⟨since, before, s₀, item, route, ha, hs⟩ := h
  refine ⟨since, before, s₀, item, route, ⟨ha.history, ha.runId.trans hr.symm,
    ha.digest.trans hd.symm, ha.item₀, ha.route₀, hi.trans ha.item, ho.trans ha.route, ?_⟩, ?_⟩
  · rw [hd]
    exact ha.unadopted
  · refine ⟨?_, ?_, hs.item, hs.route⟩
    · rw [hr, hs.runId]
    · rw [hd, hs.digest]

theorem persisted (h : Grounded log s k) : Grounded log s.persisted k := by
  obtain ⟨since, before, s₀, item, route, ha, hs⟩ := h
  apply congr ⟨since, before, s₀, item, route, ha, hs⟩
  · exact hs.runId
  · exact hs.digest
  · rw [RunState.persisted, get?_persistDict, ha.item, Option.map_some, hs.item]
  · rw [RunState.persisted, get?_persistDict, ha.route, Option.map_some, hs.route]

end Grounded

theorem storedAsIs_of_loaded {s : RunState} {decision : RouteDecision}
    (hi : s.persisted.workItems.get? k = some item)
    (hr : s.persisted.routes.get? k = some decision) : StoredAsIs s.persisted item decision := by
  rw [RunState.persisted, get?_persistDict, Option.map_eq_some_iff] at hi hr
  obtain ⟨item₀, _, rfl⟩ := hi
  obtain ⟨route₀, _, rfl⟩ := hr
  exact ⟨persistText_idem _, persistText_idem _, item₀.persisted_idem, route₀.persisted_idem⟩

theorem approvalsGrounded_invariant (host : Host) : ValidInvariant host ApprovalsGrounded where
  event {e _ _} he h k hk := by
    apply (h k hk).event
    cases e with
    | replaced s' => exact absurd rfl (he s')
    | began | answered => rfl
  landed _ h k hk := by
    apply (h k hk).event
    simp [Event.adopts]
  fresh _ hf _ k hk := by
    rw [hf.approvals] at hk
    cases hk
  loaded hv h hl k hk := by
    rw [hv.load hl] at hk ⊢
    exact (h k (mem_keys_persistDict.1 hk)).persisted
  approved {_ s₀ s _ _ workItemId _ _} hv₀ _ hl _ h ha k hk := by
    have hs := hv₀.load hl
    obtain ⟨item, route, record, hi, hr, _, _, _, _, _, rfl⟩ := approve_ok ha
    rcases Dict.mem_keys_set.1 hk with rfl | hk
    · refine ⟨[], _, _, item, route, ⟨rfl, rfl, rfl, hi, hr, hi, hr, ?_⟩, ?_⟩
      · exact fun _ hm => absurd hm List.not_mem_nil
      · subst hs
        have hstored := storedAsIs_of_loaded hi hr
        exact ⟨hstored.runId, hstored.digest, hstored.item, hstored.route⟩
    · exact ((h k hk).event rfl).congr rfl rfl rfl rfl
  adopted _ _ _ _ ha k hk := by
    obtain ⟨_, rfl, _⟩ := RunState.adoptCurrentConfiguration_ok ha
    cases hk
  blocked _ h _ k hk := (h k hk).congr rfl rfl rfl rfl
  finished _ h _ k hk := (h k hk).congr rfl rfl rfl rfl
  statusSet _ h _ k hk := (h k hk).congr rfl rfl rfl rfl
  concluded _ h _ _ k hk := (h k hk).congr rfl rfl rfl rfl
  appended _ _ hv h _ _ hn _ k hk := by
    have hne : k ≠ completionId := by
      rintro rfl
      exact hn (hv.approvals _ hk)
    exact (h k hk).congr rfl rfl (Dict.get?_set_of_ne _ _ hne) (Dict.get?_set_of_ne _ _ hne)

/-- An item that requires approval is dispatched only as it was approved, in this run and under
this configuration, with no other configuration adopted since. -/
theorem dispatch_approved (h : Reachable host w)
    (hl : w.log = later ++ .answered (.note (.dispatching s item)) r :: earlier)
    (hr : s.routes.get? item.id = some decision) (ha : decision.approval = .required) :
    ∃ since s₀ before,
      earlier = since ++ .answered (.note (.approved s₀ item.id)) (.ok ()) :: before ∧
      s₀.runId = s.runId ∧ s₀.configurationDigest = s.configurationDigest ∧
      s₀.workItems.get? item.id = some item ∧ s₀.routes.get? item.id = some decision ∧
      ∀ e ∈ since, e.adopts s.configurationDigest = false := by
  obtain ⟨m, hw⟩ := h.alive
  obtain ⟨w₀, rfl, hs, hd⟩ := hw.origin hl
  obtain ⟨hv, hg⟩ := ((approvalsGrounded_invariant host).kept hs).memory s rfl
  obtain ⟨_, route, _, ho, happ⟩ := requireDispatchable_ok (RunState.mem_dispatchable.1 hd).2.2
  rw [hr] at ho
  cases ho
  rcases happ with happ | ⟨record, hrec, _⟩
  · rw [ha] at happ
    cases happ
  · obtain ⟨since, before, s₀, item', route', happ, _⟩ := hg _ (Dict.mem_keys_of_get? hrec)
    have hi := happ.item
    rw [(hv.dispatchable hd).1] at hi
    cases hi
    have ho := happ.route
    rw [hr] at ho
    cases ho
    exact ⟨since, s₀, before, happ.history, happ.runId, happ.digest, happ.item₀, happ.route₀,
      happ.unadopted⟩

def requiringApplication : Application sampleHost :=
  sampleApplication .automatic .required .readOnly (by decide +kernel)

/-- The plan, the approval of its item, and the run of it. -/
def approvedWorld : World :=
  let script := sampleScript singlePlan ["a"]
  let planned := script.session requiringApplication
    (.planObjective samplePath (text "Go") none) sampleWorld
  let approved := script.session requiringApplication
    (.approve (text "run") (text "a") (text "me")) planned
  script.session requiringApplication (.resume (text "run") false) approved

theorem approvedWorld_reachable : Reachable sampleHost approvedWorld := by
  repeat apply Script.session_reachable
  exact sampleWorld_reachable

def Event.dispatchesRequired : Event → Bool
  | .answered (.note (.dispatching s item)) _ =>
    item.id = text "a" && s.routes.get? item.id = some singleDecision
  | _ => false

theorem approvedWorld_dispatches : ∃ e ∈ approvedWorld.log, e.dispatchesRequired = true := by
  rw [approvedWorld]
  generalize hw : (sampleScript singlePlan ["a"]).session requiringApplication
    (.approve (text "run") (text "a") (text "me")) _ = approved
  have hsome : (((Operation.resume (text "run") false).program requiringApplication).execUntil
      (fun w => w.log.head?.any Event.dispatchesRequired)
      ((sampleScript singlePlan ["a"]).answer sampleHost)
      (approved.begin requiringApplication.config)).isSome = true := by
    rw [← hw]
    decide +kernel
  obtain ⟨w, hw⟩ := Option.isSome_iff_exists.1 hsome
  obtain ⟨hfound, events, hlog⟩ := Script.session_until _ hw
  obtain ⟨e, hhead, he⟩ := (Option.any_eq_true _ _).1 hfound
  refine ⟨e, ?_, he⟩
  rw [hlog]
  exact List.mem_append_right _ (List.mem_of_head? hhead)

/-- The item of a run that was planned, approved and resumed is dispatched as approved. -/
theorem dispatch_approved_sample : ∃ later s item r earlier since s₀ before,
    approvedWorld.log = later ++ .answered (.note (.dispatching s item)) r :: earlier ∧
      s.routes.get? item.id = some singleDecision ∧
        earlier = since ++ .answered (.note (.approved s₀ item.id)) (.ok ()) :: before ∧
          s₀.workItems.get? item.id = some item := by
  obtain ⟨e, hm, he⟩ := approvedWorld_dispatches
  rw [Event.dispatchesRequired.eq_def] at he
  split at he
  · rename_i s item r
    obtain ⟨later, earlier, hl⟩ := List.append_of_mem hm
    have hr := of_decide_eq_true (Bool.and_eq_true_iff.1 he).2
    obtain ⟨since, s₀, before, hlog, _, _, hi, _⟩ :=
      dispatch_approved approvedWorld_reachable hl hr rfl
    exact ⟨later, s, item, r, earlier, since, s₀, before, hl, hr, hlog, hi⟩
  · cases he

end GoalRouter
