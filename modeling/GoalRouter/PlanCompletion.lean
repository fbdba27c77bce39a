import GoalRouter.Library.Completion
import GoalRouter.SchedulerQuiescence
import GoalRouter.IdentifierRedaction

namespace GoalRouter
open Library
set_option autoImplicit true

variable {host : Host}

/-- How the world answers when the project lease is free, no write fails and every turn succeeds. -/
inductive Smooth (host : Host) : World → (c : Call) → Except PyError (Val c) → World → Prop where
  | answered (hn : Next host w c (.ok v) w') (hc : ∀ b running, c ≠ .awaitTurn b running) :
      Smooth host w c (.ok v) w'
  | succeeded (hn : Next host w (.awaitTurn b running) (.ok (t, .ok r)) w') :
      Smooth host w (.awaitTurn b running) (.ok (t, .ok r)) w'

/-- A run whose plan was just accepted: its items are those of the plan, none has a result, and all
are routed for automatic approval. -/
structure Accepted (items : List WorkItem) (s : RunState) : Prop where
  workItems : s.workItems = Dict.ofList (items.map fun item => (item.id, item))
  results : s.results = ∅
  routes : ∀ item ∈ items, ∃ route, s.routes.get? item.id = some route ∧ route.approval = .automatic

/-- The store holds the run, and the turns started since `base` are those of the given items. -/
structure Started (runId : Text) (base : List Turn) (order : List WorkItem) (w : World) : Prop where
  runId : w.runId = runId
  stored : w.dir ≠ .absent
  turns : ∃ turns, w.started = turns ++ base ∧ turns.map Turn.subject = order.map Subject.item

/-- The result of a turn of the item that succeeded. -/
def Succeeds (item : WorkItem) (r : WorkResult) : Prop :=
  r.workItemId = item.id ∧ r.status = .succeeded

/-- Run from `w`, the program returns with `Q` in a world that answers smoothly. -/
abbrev Finishes (host : Host) (Q : α → World → Prop) (p : Program α) (w : World) : Prop :=
  p.Completes (Smooth host) Q w

/-- Calls other than for a turn or for a snapshot. -/
def Call.isRoutine : Call → Bool
  | .acquireProject _ | .releaseProject _ | .now | .appendEvent _ _ | .note _ => true
  | _ => false

section Calls

variable {rid : Text} {base : List Turn} {order : List WorkItem}

theorem Started.push (h : Started rid base order w) (hc : ∀ t, c ≠ .startTurn t)
    (r : Except PyError (Val c)) : Started rid base order (w.push c r) := by
  refine ⟨h.runId, h.stored, ?_⟩
  have hs : (w.push c r).started = w.started := by
    cases c with
    | startTurn t => exact absurd rfl (hc t)
    | _ => rfl
  rw [hs]
  exact h.turns

theorem Started.startTurn (h : Started rid base order w) (ht : t.subject = .item item) :
    Started rid base (item :: order) (w.push (.startTurn t) (.ok ())) := by
  obtain ⟨turns, hs, hm⟩ := h.turns
  refine ⟨h.runId, h.stored, t :: turns, ?_, ?_⟩
  · exact congrArg (t :: ·) hs
  · rw [List.map_cons, List.map_cons, ht, hm]

theorem Call.exists_next {c : Call} (hc : c.isRoutine = true) (w : World) :
    ∃ v, Next host w c (.ok v) (w.push c (.ok v)) := by
  cases c with
  | acquireProject => exact ⟨_, .acquireProject⟩
  | releaseProject => exact ⟨_, .releaseProject⟩
  | now => exact ⟨_, .now (sampleScript singlePlan []).time (sampleScript singlePlan []).aware⟩
  | appendEvent => exact ⟨_, .appendEvent⟩
  | note => exact ⟨_, .note⟩
  | _ => cases hc

theorem invoke_finishes {c : Call} (h : Started rid base order w) (hc : c.isRoutine = true) :
    Finishes host (fun _ => Started rid base order) (invoke c) w := by
  have hstart (t : Turn) : c ≠ .startTurn t := by
    rintro rfl
    cases hc
  have hawait (b : Bool) (running : List Turn) : c ≠ .awaitTurn b running := by
    rintro rfl
    cases hc
  obtain ⟨v, hv⟩ := @Call.exists_next host c hc w
  apply Prog.Completes.invoke ⟨_, _, .answered hv hawait⟩
  intro r w' hn
  cases hn with
  | succeeded => cases hc
  | answered hn _ =>
    rename_i v _
    have hw : w' = w.push c (.ok v) := by
      cases hn <;> first | rfl | cases hc
    exact ⟨v, rfl, hw ▸ h.push hstart (.ok v)⟩

theorem saveRun_finishes (h : Started rid base order w) (hid : isRunId rid = true) {s : RunState}
    (hs : s.runId = rid) : Finishes host (fun _ => Started rid base order) (saveRun host s) w := by
  have hvalid : validateRunId host s.runId = .ok s.runId := if_pos (hs ▸ hid)
  have hw : s.runId = w.runId := hs.trans h.runId.symm
  obtain ⟨dir, hd⟩ : ∃ dir, saveSync s w.dir = .ok dir := by
    cases hw : w.dir with
    | absent => exact absurd hw h.stored
    | empty | snapshot => exact ⟨_, rfl⟩
  rw [saveRun, hvalid]
  apply Prog.Completes.invoke ⟨_, _, .answered (.saved hw hd (.inl rfl)) nofun⟩
  intro r w' hn
  cases hn with
  | answered hn _ =>
    cases hn with
    | saved => exact ⟨(), rfl, h.runId, nofun, h.turns⟩

theorem persistResult_finishes (h : Started rid base order w) (hid : isRunId rid = true)
    {s : RunState} (hs : s.runId = rid) (r : WorkResult) :
    Finishes host (fun s' w' => s' = s.withResult r ∧ Started rid base order w')
      (persistResult host s r) w := by
  have hs : (s.withResult r).runId = rid := hs
  apply (saveRun_finishes h hid hs).bind
  intro _ w₁ h₁
  apply (invoke_finishes h₁ rfl).bind
  intro time w₂ h₂
  apply Prog.Completes.bind (Q := fun _ => Started rid base order)
  · have hvalid : validateRunId host (s.withResult r).runId = .ok (s.withResult r).runId :=
      if_pos (hs ▸ hid)
    rw [appendEvent, hvalid]
    exact invoke_finishes h₂ rfl
  · exact fun _ w₃ h₃ => ⟨rfl, h₃⟩

theorem persistResults_finishes (h : Started rid base order w) (hid : isRunId rid = true)
    (results : List WorkResult) {s : RunState} (hs : s.runId = rid) :
    Finishes host (fun s' w' => s' = results.foldl RunState.withResult s ∧
      Started rid base order w') (results.foldlM (persistResult host) s) w := by
  induction results generalizing s w with
  | nil => exact ⟨rfl, h⟩
  | cons r results ih =>
    apply (persistResult_finishes h hid hs r).bind
    rintro _ w₁ ⟨rfl, h₁⟩
    exact ih h₁ hs

end Calls

section Turns

variable {rid : Text} {base : List Turn} {order : List WorkItem} {s : RunState}

theorem startTurn_finishes (h : Started rid base order w) (ht : t.subject = .item item) :
    Finishes host (fun _ => Started rid base (item :: order)) (invoke (.startTurn t)) w := by
  apply Prog.Completes.invoke ⟨_, _, .answered .startTurn nofun⟩
  intro r w' hn
  cases hn with
  | answered hn _ =>
    cases hn with
    | startTurn => exact ⟨(), rfl, h.startTurn ht⟩

theorem awaitTurn_finishes (h : Started rid base order w) (b : Bool) {running : List Turn}
    (hr : running ≠ []) :
    Finishes host (fun v w' => v.1 ∈ running ∧ (∃ r, v.2 = .ok r ∧ r.status = .succeeded) ∧
      Started rid base order w') (invoke (.awaitTurn b running)) w := by
  obtain ⟨t, rest, rfl⟩ := List.exists_cons_of_ne_nil hr
  let result := normalizeResult t.route [] (sampleTurn [])
  have hok : ∃ r, result = .ok r := ⟨_, rfl⟩
  obtain ⟨r, hok⟩ := hok
  have hends : t.Ends (.ok r) := ⟨_, _, hok⟩
  apply Prog.Completes.invoke ⟨_, _, .succeeded (.awaitTurn List.mem_cons_self hends)⟩
  intro x w' hn
  cases hn with
  | answered _ hc => exact absurd rfl (hc _ _)
  | succeeded hn =>
    cases hn with
    | awaitTurn hm he =>
      obtain ⟨threadId, turn, hr⟩ := he
      exact ⟨_, rfl, hm, ⟨_, rfl, normalizeResult_succeeded hr⟩,
        h.push (fun _ hc => Call.noConfusion hc) _⟩

theorem note_finishes (h : Started rid base order w) (n : Note) :
    Finishes host (fun _ => Started rid base order) (note n) w :=
  invoke_finishes h rfl

theorem runOne_finishes (h : Started rid base order w) (ht : dispatchTurn host s item = .ok t) :
    Finishes host (fun r w' => Succeeds item r ∧ Started rid base (item :: order) w')
      (runOne host s item) w := by
  rw [runOne, ht]
  apply (note_finishes h _).bind
  intro _ w₁ h₁
  apply (startTurn_finishes h₁ (dispatchTurn_ok ht).2).bind
  intro _ w₂ h₂
  apply (awaitTurn_finishes h₂ false (List.cons_ne_nil t [])).bind
  rintro ⟨_, _⟩ w₃ ⟨_, ⟨r, rfl, hs⟩, h₃⟩
  exact ⟨⟨rfl, hs⟩, h₃⟩

/-- Every item of a batch is still running, or has succeeded. -/
def Gathered (items : List WorkItem) (running : Running) (results : Collected) : Prop :=
  ∀ item ∈ items, (∃ t, (item, t) ∈ running) ∨
    ∃ r, results.get? item.id = some r ∧ Succeeds item r

theorem Running.exists_remove {running : Running} (hm : t ∈ running.turns) :
    ∃ item before after, running = before ++ (item, t) :: after ∧
      running.remove t = before ++ after ∧
        running.find? (fun p => p.2 = t) = some (item, t) := by
  obtain ⟨p, hp, rfl⟩ := List.mem_map.1 hm
  obtain ⟨⟨item, t⟩, before, after, hbefore, ht, hsplit, hremove⟩ :=
    List.exists_of_eraseP (p := fun q => decide (q.2 = p.2)) hp (by simp)
  cases of_decide_eq_true ht
  refine ⟨item, before, after, hsplit, hremove, ?_⟩
  rw [List.find?_eq_some_iff_append]
  exact ⟨by simp, before, after, hsplit, fun q hq => by simpa using hbefore q hq⟩

theorem Gathered.collect {items : List WorkItem} {running : Running} {results : Collected}
    (h : Gathered items running results) (hm : t ∈ running.turns) (hr : r.status = .succeeded) :
    Gathered items (running.remove t) (collect running results t (.ok r)) := by
  obtain ⟨item, before, after, hsplit, hremove, hf⟩ := Running.exists_remove hm
  rw [GoalRouter.collect, hf, hremove]
  intro item' hi
  by_cases he : item'.id = item.id
  · refine .inr ⟨readerResult item (.ok r), ?_, he.symm, hr⟩
    simp only [Dict.get?_set, if_pos he]
  · rcases h item' hi with ⟨t', ht⟩ | ⟨r', hg, hs⟩
    · refine .inl ⟨t', ?_⟩
      rw [hsplit, List.mem_append, List.mem_cons] at ht
      rcases ht with ht | ht | ht
      · exact List.mem_append_left _ ht
      · cases ht
        exact absurd rfl he
      · exact List.mem_append_right _ ht
    · refine .inr ⟨r', ?_, hs⟩
      simp only [Dict.get?_set, if_neg he]
      exact hg

theorem gather_finishes {items : List WorkItem} (n : Nat) {running : Running}
    {results : Collected} (h : Started rid base order w) (hg : Gathered items running results)
    (hn : running.length = n) :
    Finishes host (fun results w' => Gathered items [] results ∧ Started rid base order w')
      (gather n running results) w := by
  induction n generalizing w running results with
  | zero =>
    rw [List.eq_nil_of_length_eq_zero hn] at hg
    exact ⟨hg, h⟩
  | succ n ih =>
    have hne : running.turns ≠ [] := by
      intro he
      rw [Running.turns, List.map_eq_nil_iff] at he
      rw [he] at hn
      cases hn
    rw [gather]
    apply (awaitTurn_finishes h true hne).attempt.bind
    rintro _ w₁ ⟨⟨t, _⟩, rfl, hm, ⟨r, rfl, hs⟩, h₁⟩
    exact ih h₁ (hg.collect hm hs) (Running.length_remove hm hn)

theorem startBatch_finishes {items : List WorkItem} {running : Running} {results : Collected}
    (hi : ∀ item ∈ items, ∃ t, dispatchTurn host s item = .ok t)
    (h : Started rid base order w) :
    Finishes host (fun v w' => (∀ item ∈ items, ∃ t, (item, t) ∈ v.1) ∧ running ⊆ v.1 ∧
      v.2.2 = false ∧ Started rid base (items.reverse ++ order) w')
      (startBatch host s items running results false) w := by
  induction items generalizing w running order with
  | nil => exact ⟨fun _ hm => absurd hm List.not_mem_nil, List.Subset.refl _, rfl, h⟩
  | cons item items ih =>
    obtain ⟨⟨t, ht⟩, hi⟩ := List.forall_mem_cons.1 hi
    rw [startBatch, ht]
    apply (note_finishes h _).bind
    intro _ w₁ h₁
    apply (startTurn_finishes h₁ (dispatchTurn_ok ht).2).bind
    intro _ w₂ h₂
    apply (ih hi h₂).mono
    rintro v w' ⟨hv, hsub, hf, hw⟩
    refine ⟨List.forall_mem_cons.2 ⟨⟨t, hsub ?_⟩, hv⟩, ?_, hf, ?_⟩
    · exact List.mem_append_right _ (List.mem_singleton_self _)
    · exact fun p hp => hsub (List.mem_append_left _ hp)
    · rw [List.reverse_cons, List.append_assoc]
      exact hw

theorem mapM_results_finishes (h : Started rid base order w) {items : List WorkItem}
    {results : Collected} (hg : Gathered items [] results) :
    Finishes host (fun rs w' => List.Forall₂ Succeeds items rs ∧ Started rid base order w')
      (items.mapM fun item => match results.get? item.id with
        | some r => pure r
        | none => raise ⟨.keyError, host.repr item.id⟩) w := by
  induction items with
  | nil => exact ⟨.nil, h⟩
  | cons item items ih =>
    obtain ⟨hi, hg⟩ := List.forall_mem_cons.1 hg
    rcases hi with ⟨_, ht⟩ | ⟨r, hr, hs⟩
    · cases ht
    · rw [List.mapM_cons, hr]
      simp only [pure_bind]
      apply (ih hg).bind
      rintro rs w' ⟨hrs, hw⟩
      exact ⟨.cons hs hrs, hw⟩

theorem runReadBatch_finishes {items : List WorkItem} (h : Started rid base order w)
    (hi : ∀ item ∈ items, ∃ t, dispatchTurn host s item = .ok t) :
    Finishes host (fun rs w' => List.Forall₂ Succeeds items rs ∧
      Started rid base (items.reverse ++ order) w') (runReadBatch host s items) w := by
  apply (startBatch_finishes hi h).bind
  rintro ⟨running, results, _⟩ w₁ ⟨hv, _, rfl, h₁⟩
  have hg : Gathered items running results := fun item hm => .inl (hv item hm)
  apply (gather_finishes _ h₁ hg rfl).bind
  rintro results w₂ ⟨hg, h₂⟩
  exact mapM_results_finishes h₂ hg

end Turns

/-- A run of an accepted plan in which just the items of `order` have been dispatched, newest first,
and all of them have succeeded. -/
structure Advanced (items : List WorkItem) (s : RunState) (order : List WorkItem) : Prop where
  workItems : s.workItems = Dict.ofList (items.map fun item => (item.id, item))
  routes : ∀ item ∈ items, ∃ route, s.routes.get? item.id = some route ∧ route.approval = .automatic
  keys : ∀ k, k ∈ s.results.keys ↔ k ∈ order.map WorkItem.id
  succeeded : ∀ k r, s.results.get? k = some r → r.status = .succeeded
  subset : order ⊆ items
  nodup : (order.map WorkItem.id).Nodup
  topological : TopologicalOrder (below (dependencyTable items)) (order.map WorkItem.id)

/-- An item that is left, with nothing left that it depends on. -/
structure IsReady (items order : List WorkItem) (item : WorkItem) : Prop where
  mem : item ∈ items
  left : item.id ∉ order.map WorkItem.id
  dependencies : ∀ d ∈ item.dependencies, d ∈ order.map WorkItem.id

/-- Some item that is left is ready, since the dependencies of a plan form no cycle. -/
theorem PlannedGraph.exists_ready {config : RouterConfig} {items order : List WorkItem}
    (hg : PlannedGraph config items)
    (hl : ∃ item ∈ items, item.id ∉ order.map WorkItem.id) : ∃ item, IsReady items order item := by
  obtain ⟨plan, ht, _, hall⟩ := hg.ordered
  obtain ⟨item, hi, hn⟩ := hl
  obtain ⟨k, _, ⟨item, hi, rfl, hn⟩, hmin⟩ := ht.exists_minimal
    (P := fun k => ∃ item ∈ items, item.id = k ∧ k ∉ order.map WorkItem.id)
    ⟨item.id, hall item hi, item, hi, rfl, hn⟩
  refine ⟨item, hi, hn, fun d hd => ?_⟩
  rw [below_dependencyTable hg.distinct hi] at hmin
  by_contra hleft
  obtain ⟨other, ho, hid⟩ := List.mem_map.1 (hg.closed item hi d hd)
  exact hmin d hd ⟨other, ho, hid, hleft⟩

namespace Advanced

variable {config : RouterConfig} {items order : List WorkItem} {s : RunState}

theorem of_accepted (h : Accepted items s) : Advanced items s [] where
  workItems := h.workItems
  routes := h.routes
  keys k := by
    rw [h.results]
    exact Iff.rfl
  succeeded k r hr := by
    rw [h.results] at hr
    cases hr
  subset := List.nil_subset _
  nodup := .nil
  topological := .nil

theorem setStatus (h : Advanced items s order) (status : RunStatus) :
    Advanced items { s with status } order :=
  ⟨h.workItems, h.routes, h.keys, h.succeeded, h.subset, h.nodup, h.topological⟩

theorem hasSucceeded_iff (h : Advanced items s order) :
    s.hasSucceeded k = true ↔ k ∈ order.map WorkItem.id := by
  rw [RunState.hasSucceeded_iff, ← h.keys, Dict.mem_keys]
  constructor
  · rintro ⟨r, hr, _⟩
    exact ⟨r, hr⟩
  · rintro ⟨r, hr⟩
    exact ⟨r, hr, h.succeeded k r hr⟩

theorem hasFailed (h : Advanced items s order) (k : Text) : s.hasFailed k = false := by
  rw [Bool.eq_false_iff]
  intro hf
  obtain ⟨r, hr, hs⟩ := RunState.hasFailed_iff.1 hf
  rw [h.succeeded k r hr] at hs
  rcases hs with hs | hs <;> cases hs

theorem isUnfinished_iff (h : Advanced items s order) :
    s.isUnfinished k = true ↔ k ∉ order.map WorkItem.id := by
  rw [← h.hasSucceeded_iff]
  constructor
  · intro hu hs
    rw [RunState.not_unfinished_of_succeeded hs] at hu
    cases hu
  · intro hn
    rw [RunState.isUnfinished_iff]
    intro r hr
    exact absurd (RunState.hasSucceeded_iff.2 ⟨r, hr, h.succeeded k r hr⟩) hn

theorem newlyBlocked (h : Advanced items s order) : s.newlyBlocked = [] :=
  newlyBlocked_nil.2 fun _ _ d _ => h.hasFailed d

theorem dispatchable_iff (h : Advanced items s order) (hg : PlannedGraph config items) :
    item ∈ s.dispatchable host ↔ IsReady items order item := by
  have hget (k : Text) (item : WorkItem) : s.workItems.get? k = some item ↔
      item ∈ items ∧ item.id = k := by
    rw [h.workItems, get?_itemTable hg.distinct]
  rw [RunState.mem_dispatchable, RunState.mem_pendingItems]
  constructor
  · rintro ⟨⟨k, hk, hu⟩, hd, _⟩
    obtain ⟨hi, rfl⟩ := (hget k item).1 hk
    exact ⟨hi, h.isUnfinished_iff.1 hu, fun d hm => h.hasSucceeded_iff.1 (hd d hm)⟩
  · intro hr
    have hitem := (hget item.id item).2 ⟨hr.mem, rfl⟩
    obtain ⟨route, hroute, ha⟩ := h.routes item hr.mem
    refine ⟨⟨item.id, hitem, h.isUnfinished_iff.2 hr.left⟩,
      fun d hm => h.hasSucceeded_iff.2 (hr.dependencies d hm), ?_⟩
    rw [requireDispatchable, requireItemAndRoute_of hitem hroute, ok_bind]
    simp only [ha, if_pos]
    rfl

theorem withResult (h : Advanced items s order) (hg : PlannedGraph config items)
    (hi : IsReady items order item) (hr : Succeeds item r) :
    Advanced items (s.withResult r) (item :: order) where
  workItems := h.workItems
  routes := h.routes
  keys k := by
    rw [RunState.withResult, Dict.mem_keys_set, h.keys, hr.1, List.map_cons, List.mem_cons]
  succeeded k r' hk := by
    rw [RunState.withResult, Dict.get?_set] at hk
    split at hk
    · cases hk
      exact hr.2
    · exact h.succeeded k r' hk
  subset := List.cons_subset.2 ⟨hi.mem, h.subset⟩
  nodup := List.nodup_cons.2 ⟨hi.left, h.nodup⟩
  topological := by
    apply h.topological.cons
    rw [below_dependencyTable hg.distinct hi.mem]
    exact hi.dependencies

theorem withResults {batch : List WorkItem} {results : List WorkResult}
    (hr : List.Forall₂ Succeeds batch results) (h : Advanced items s order)
    (hg : PlannedGraph config items) (hb : ∀ item ∈ batch, IsReady items order item)
    (hn : (batch.map WorkItem.id).Nodup) :
    Advanced items (results.foldl RunState.withResult s) (batch.reverse ++ order) := by
  induction hr generalizing s order with
  | nil => exact h
  | @cons item r batch results hs _ ih =>
    obtain ⟨hi, hb⟩ := List.forall_mem_cons.1 hb
    obtain ⟨hni, hn⟩ := List.nodup_cons.1 hn
    rw [List.reverse_cons, List.append_assoc]
    apply ih (h.withResult hg hi hs) _ hn
    intro other ho
    obtain ⟨hm, hl, hd⟩ := hb other ho
    refine ⟨hm, ?_, fun d hd' => List.mem_cons_of_mem _ (hd d hd')⟩
    rw [List.map_cons, List.mem_cons, not_or]
    exact ⟨fun he => hni (he ▸ List.mem_map_of_mem ho), hl⟩

end Advanced

section Loop

variable {config : RouterConfig} {items order : List WorkItem} {s : RunState} {rid : Text}
  {base : List Turn}

theorem Advanced.exists_turn (h : Advanced items s order) (hi : item ∈ items) :
    ∃ t, dispatchTurn host s item = .ok t := by
  obtain ⟨route, hr, _⟩ := h.routes item hi
  rw [dispatchTurn, hr]
  exact ⟨_, rfl⟩

/-- What `p` returns has advanced to an order that the turns started so far are in. -/
abbrev Advances (host : Host) (rid : Text) (base : List Turn) (items : List WorkItem)
    (P : List WorkItem → Prop) (p : Program RunState) (w : World) : Prop :=
  Finishes host (fun s w' => s.runId = rid ∧
    ∃ order, P order ∧ Advanced items s order ∧ Started rid base order w') p w

theorem forM_validated_finishes (h : Started rid base order w) (ready : List WorkItem) :
    Finishes host (fun _ => Started rid base order)
      (ready.forM fun item => note (.validated s item.id)) w := by
  induction ready generalizing w with
  | nil => exact h
  | cons item ready ih =>
    apply (note_finishes h _).bind
    exact fun _ w₁ h₁ => ih h₁

theorem writerBody_advances (hg : PlannedGraph config items) (hid : isRunId rid = true)
    (h : Advanced items s order) (hs : s.runId = rid) (hw : Started rid base order w)
    (hi : IsReady items order item) :
    Advances host rid base items (· = item :: order) (writerBody host s item) w := by
  have hd : requireDispatchable host s item.id = .ok () :=
    (RunState.mem_dispatchable.1 ((h.dispatchable_iff hg).2 hi)).2.2
  rw [writerBody, hd]
  apply (note_finishes hw _).bind
  intro _ w₁ h₁
  let running := { s with status := .running }
  have hrunning : Advanced items running order := h.setStatus .running
  obtain ⟨t, ht⟩ := @Advanced.exists_turn host _ _ _ _ hrunning hi.mem
  apply (runOne_finishes (s := running) h₁ ht).bind
  rintro r w₂ ⟨hr, h₂⟩
  apply (persistResult_finishes h₂ hid (s := running) hs r).mono
  rintro _ w₃ ⟨rfl, h₃⟩
  exact ⟨hs, _, rfl, hrunning.withResult hg hi hr, h₃⟩

theorem runWriter_advances (hg : PlannedGraph config items) (hid : isRunId rid = true)
    (h : Advanced items s order) (hs : s.runId = rid) (hw : Started rid base order w)
    (hi : IsReady items order item) :
    Advances host rid base items (· = item :: order) (runWriter host s item) w := by
  have hbody {s : RunState} {w : World} (h : Advanced items s order) (hs : s.runId = rid)
      (hw : Started rid base order w) :
      Advances host rid base items (· = item :: order) (do
        invoke (.acquireProject s.objective.projectPath)
        (writerBody host s item).ensure (invoke (.releaseProject s.objective.projectPath))) w := by
    apply (invoke_finishes hw rfl).bind
    intro _ w₁ h₁
    apply (writerBody_advances hg hid h hs h₁ hi).ensure
    rintro s' w₂ ⟨hs', order', ho, ha, h₂⟩
    exact (invoke_finishes h₂ rfl).mono fun _ w₃ h₃ => ⟨hs', order', ho, ha, h₃⟩
  rw [runWriter]
  split
  · simp only [bind_assoc, pure_bind]
    let planned := { s with status := .planned }
    apply (saveRun_finishes hw hid (s := planned) hs).bind
    intro _ w₁ h₁
    exact hbody (h.setStatus .planned) hs h₁
  · rw [pure_bind]
    exact hbody h hs hw

theorem runReaders_advances {batch : List WorkItem} (hg : PlannedGraph config items)
    (hid : isRunId rid = true) (h : Advanced items s order) (hs : s.runId = rid)
    (hw : Started rid base order w) (hb : ∀ item ∈ batch, IsReady items order item)
    (hn : (batch.map WorkItem.id).Nodup) :
    Advances host rid base items (· = batch.reverse ++ order) (runReaders host s batch) w := by
  let running := { s with status := .running }
  have hrunning : Advanced items running order := h.setStatus .running
  rw [runReaders]
  apply (runReadBatch_finishes (s := running) hw
    fun item hm => hrunning.exists_turn (hb item hm).mem).bind
  rintro results w₁ ⟨hr, h₁⟩
  apply (persistResults_finishes h₁ hid results (s := running) hs).mono
  rintro _ w₂ ⟨rfl, h₂⟩
  obtain ⟨d, hd⟩ := RunState.foldl_withResult_eq running results
  refine ⟨?_, _, rfl, hrunning.withResults hr hg hb hn, h₂⟩
  rw [hd]
  exact hs

/-- Nothing can be dispatched only once every item has been. -/
theorem Advanced.perm_of_idle (h : Advanced items s order) (hg : PlannedGraph config items)
    (hd : s.dispatchable host = []) : order.Perm items := by
  apply (List.subperm_of_subset (.of_map _ h.nodup) h.subset).antisymm
  apply List.subperm_of_subset (.of_map _ hg.distinct)
  intro item hi
  by_cases hl : item.id ∈ order.map WorkItem.id
  · obtain ⟨other, ho, he⟩ := List.mem_map.1 hl
    rwa [List.inj_on_of_nodup_map hg.distinct hi (h.subset ho) he.symm]
  · obtain ⟨ready, hr⟩ := hg.exists_ready ⟨item, hi, hl⟩
    have hm : ready ∈ s.dispatchable host := (h.dispatchable_iff hg).2 hr
    rw [hd] at hm
    cases hm

/-- Each iteration dispatches an item at least, so as many iterations as there are items are left to
dispatch are enough. -/
theorem runLoop_advances (hg : PlannedGraph config items) (hid : isRunId rid = true)
    (hm : 1 ≤ maxRead) (n : Nat) {s : RunState} {order : List WorkItem}
    (h : Advanced items s order) (hs : s.runId = rid) (hw : Started rid base order w)
    (hn : items.length ≤ n + order.length) :
    Advances host rid base items (·.Perm items) (runLoop host maxRead n s) w := by
  induction n generalizing w s order with
  | zero =>
    rw [Nat.zero_add] at hn
    have hsub := List.subperm_of_subset (.of_map _ h.nodup) h.subset
    exact ⟨hs, order, hsub.perm_of_length_le hn, h, hw⟩
  | succ n ih =>
    rw [runLoop]
    apply (note_finishes hw _).bind
    intro _ w₁ h₁
    rw [h.newlyBlocked, persistBlocked, List.foldlM_nil, pure_bind]
    dsimp only
    split
    · rename_i hd
      exact ⟨hs, order, h.perm_of_idle hg hd, h, h₁⟩
    · rename_i hd
      apply (forM_validated_finishes h₁ _).bind
      intro _ w₂ h₂
      split
      · rename_i item hf
        have hi := (h.dispatchable_iff hg).1 (List.mem_of_find?_eq_some hf)
        apply (runWriter_advances hg hid h hs h₂ hi).bind
        rintro s' w₃ ⟨hs', _, rfl, ha, h₃⟩
        apply ih ha hs' h₃
        rw [List.length_cons]
        omega
      · let batch := (s.dispatchable host).take maxRead
        have hsub : batch.Sublist (s.dispatchable host) := List.take_sublist _ _
        have hready (item : WorkItem) (hb : item ∈ batch) : IsReady items order item :=
          (h.dispatchable_iff hg).1 (hsub.mem hb)
        have hkeyed : ((s.dispatchable host).map WorkItem.id).Nodup := by
          apply nodup_dispatchable
          intro k item hk _
          rw [h.workItems, get?_itemTable hg.distinct] at hk
          exact hk.2.symm
        apply (runReaders_advances hg hid h hs h₂ hready (hkeyed.sublist (hsub.map _))).bind
        rintro s' w₃ ⟨hs', _, rfl, ha, h₃⟩
        apply ih ha hs' h₃
        have hpos : 1 ≤ batch.length := by
          have := List.length_pos_iff.2 hd
          rw [List.length_take]
          omega
        rw [List.length_append, List.length_reverse]
        omega

theorem Advanced.finalStatus (h : Advanced items s order) (hg : PlannedGraph config items)
    (hp : order.Perm items) : s.finalStatus host = .ok .completed := by
  have hall : ∀ status ∈ s.results.values.map WorkResult.status, status = .succeeded := by
    intro status hm
    obtain ⟨r, hr, rfl⟩ := List.mem_map.1 hm
    obtain ⟨k, hk⟩ := Dict.mem_values.1 hr
    exact h.succeeded k r hk
  have hfailed : .failed ∉ s.results.values.map WorkResult.status := fun hm => by
    cases hall _ hm
  have hblocked : .blocked ∉ s.results.values.map WorkResult.status := fun hm => by
    cases hall _ hm
  have hsize : s.results.size = s.workItems.size := by
    apply Dict.size_eq_of_keys
    intro k
    rw [h.keys, h.workItems, keys_itemTable hg.distinct]
    exact (hp.map _).mem_iff
  rw [RunState.finalStatus, if_neg hfailed, if_neg hblocked, if_pos ⟨hsize, hall⟩]

theorem conclude_advances (hg : PlannedGraph config items) (hid : isRunId rid = true)
    (h : Advanced items s order) (hs : s.runId = rid) (hw : Started rid base order w)
    (hp : order.Perm items) :
    Finishes host (fun s' w' => s'.status = .completed ∧ Advanced items s' order ∧
      Started rid base order w') (conclude host s) w := by
  rw [conclude, h.finalStatus hg hp]
  apply (note_finishes hw _).bind
  intro _ w₁ h₁
  show Finishes host _ (if s.status = .completed then pure s else _) w₁
  split
  · rename_i hc
    exact ⟨hc, h, h₁⟩
  · let completed := { s with status := .completed }
    apply (saveRun_finishes h₁ hid (s := completed) hs).bind
    exact fun _ w₂ h₂ => ⟨rfl, h.setStatus .completed, h₂⟩

end Loop

/-- What one call of `run_ready` makes of an accepted plan: the turns it starts are those of the
items, each once, in an order in which each comes after the ones it depends on, and all of them
succeed. -/
structure PlanCompleted (items : List WorkItem) (w : World) (s' : RunState) (w' : World) :
    Prop where
  dispatched : ∃ (turns : List Turn) (order : List WorkItem), w'.started = turns ++ w.started ∧
    turns.map Turn.subject = order.map Subject.item ∧ order.Perm items ∧
      TopologicalOrder (below (dependencyTable items)) (order.map WorkItem.id)
  succeeded : ∀ item ∈ items, ∃ r, s'.results.get? item.id = some r ∧ r.status = .succeeded
  completed : s'.status = .completed

/-- On an accepted plan with automatic routes, in a world that answers smoothly, `run_ready`
returns, with the plan completed. -/
theorem accepted_plan_completes {config : RouterConfig} {project : PurePath} {content : Option Text}
    {items : List WorkItem} {s : RunState}
    (hp : parseAndValidate host config project content = .ok items)
    (ha : Accepted items s) (hm : 1 ≤ maxRead) (hid : isRunId s.runId = true)
    (hw : w.runId = s.runId) (hd : w.dir ≠ .absent) :
    (runReady host maxRead s).Completes (Smooth host) (PlanCompleted items w) w := by
  have hg := parseAndValidate_ok hp
  have hstart : Started s.runId w.started [] w := ⟨hw, hd, [], rfl, rfl⟩
  have hsize : s.workItems.size = items.length := by
    rw [← Dict.length_keys, ha.workItems, keys_itemTable hg.distinct, List.length_map]
  have hn : items.length ≤ s.workItems.size + 0 := by omega
  rw [runReady]
  apply (runLoop_advances hg hid hm _ (.of_accepted ha) rfl hstart hn).bind
  rintro s₁ w₁ ⟨hs₁, order, hperm, h₁, hw₁⟩
  apply (conclude_advances hg hid h₁ hs₁ hw₁ hperm).mono
  rintro s₂ w₂ ⟨hc, h₂, hw₂⟩
  obtain ⟨turns, ht, hsub⟩ := hw₂.turns
  refine ⟨⟨turns, order, ht, hsub, hperm, h₂.topological⟩, fun item hi => ?_, hc⟩
  have hid : item.id ∈ order.map WorkItem.id := List.mem_map_of_mem (hperm.mem_iff.2 hi)
  exact RunState.hasSucceeded_iff.1 (h₂.hasSucceeded_iff.2 hid)

/-- The items of `secretPlan`, which depend one on the other, and a run of them. -/
def chainedItems : List WorkItem :=
  [{ singleItem with id := text "sk-abcdef" },
    { singleItem with id := text "b", dependencies := [text "sk-abcdef"] }]

def chainedState : RunState :=
  { singleState (text "run") (text "b") with
    workItems := Dict.ofList (chainedItems.map fun item => (item.id, item))
    routes := Dict.ofList (chainedItems.map fun item =>
      (item.id, { singleDecision with approval := .automatic })) }

theorem chained_plan_completes : (runReady sampleHost 1 chainedState).Completes (Smooth sampleHost)
    (PlanCompleted chainedItems (sampleWorld.land chainedState))
      (sampleWorld.land chainedState) := by
  have hp : parseAndValidate sampleHost plainApplication.config samplePath
      (some (renderJson secretPlan)) = .ok chainedItems := by decide +kernel
  have ha : Accepted chainedItems chainedState := by
    refine ⟨rfl, rfl, fun item hm => ?_⟩
    have hr : ∀ item ∈ chainedItems, (chainedState.routes.get? item.id).map RouteDecision.approval =
        some .automatic := by decide
    exact Option.map_eq_some_iff.1 (hr item hm)
  exact accepted_plan_completes hp ha (by decide) (by decide) rfl nofun

end GoalRouter
