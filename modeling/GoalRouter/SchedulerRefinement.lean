import GoalRouter.LifecycleStates

namespace GoalRouter
open Library
set_option autoImplicit true

variable {host : Host}

theorem Next.quiet (h : Next host w c r w') (hc : c.quiet = true) : w' = w.push c r := by
  cases h <;> first | rfl | cases hc

theorem Next.currentConfig (h : Next host w c r w') :
    currentConfig w'.log = currentConfig w.log := by
  cases h <;> rfl

theorem Next.mem_log (h : Next host w c r w') (he : e ∈ w.log) : e ∈ w'.log := by
  cases h <;> simp [he]

def Alive (host : Host) (w : World) : Prop := ∃ m, Lifecycle host m w

/-- Run from `w`, the program stays within the life of the run, and returns with `Q`. -/
abbrev Lives (host : Host) (Q : α → World → Prop) (p : Program α) (w : World) : Prop :=
  p.Safe (Next host) (Alive host) Q (fun _ w => Alive host w) w

theorem invoke_safe (h : Lifecycle host m w) (hc : c.quiet = true) :
    (invoke c).Safe (Next host) (Alive host)
      (fun v w' => Lifecycle host m w' ∧ Next host w c (.ok v) w')
      (fun _ w' => Lifecycle host m w') w := by
  apply Prog.Safe.invoke
  intro r w' hn
  have hw : Lifecycle host m w' := by
    rw [hn.quiet hc]
    exact h.quiet (Event.quiet_answered hc r)
  cases r with
  | ok v => exact ⟨⟨m, hw⟩, hw, hn⟩
  | error e => exact ⟨⟨m, hw⟩, hw⟩

theorem invoke_lives (h : Lifecycle host m w) (hc : c.quiet = true) :
    Lives host (fun v w' => Lifecycle host m w' ∧ Next host w c (.ok v) w') (invoke c) w :=
  (invoke_safe h hc).mono (fun _ _ hw => hw) fun _ _ hw => ⟨m, hw⟩

theorem ofExcept_lives (h : Lifecycle host m w) (x : Except PyError α) :
    Lives host (fun a w' => x = .ok a ∧ w' = w) (Prog.ofExcept x) w :=
  Prog.Safe.ofExcept (fun _ ha => ⟨ha, rfl⟩) fun _ _ => ⟨m, h⟩

/-- A program runs under the configuration with which its process began. -/
theorem configured_lives {p : Program α} (h : Lives host Q p w)
    (hc : currentConfig w.log = some config) :
    Lives host (fun a w' => Q a w' ∧ currentConfig w'.log = some config) p w := by
  have hstep (w : World) (c : Call) (r : Except PyError (Val c)) (w' : World)
      (hn : Next host w c r w') (hw : currentConfig w.log = some config) :
      currentConfig w'.log = some config := hn.currentConfig.trans hw
  have hkept := Prog.Safe.keeps hstep p hc
  exact ((h.and hkept).weaken fun _ hw => hw.1).mono (fun _ _ hw => hw) fun _ _ hw => hw.1

section Store

theorem saveRun_logged (h : Lifecycle host (some s) w) :
    Lives host (fun _ w' => Lifecycle host (some s) w' ∧
      w'.log = .answered (.save s) (.ok ()) :: .replaced s :: w.log) (saveRun host s) w := by
  apply (ofExcept_lives h _).bind
  rintro _ _ ⟨_, rfl⟩
  apply Prog.Safe.invoke
  intro r w' hn
  cases hn with
  | raises => exact ⟨⟨_, h.save _⟩, _, h.save _⟩
  | saved hr hd ha =>
    have hw := (h.saved hr (saveSync_ok hd).1).save r
    cases r with
    | ok => exact ⟨⟨_, hw⟩, hw, rfl⟩
    | error => exact ⟨⟨_, hw⟩, _, hw⟩

theorem saveRun_lives (h : Lifecycle host (some s) w) :
    Lives host (fun _ => Lifecycle host (some s)) (saveRun host s) w :=
  (saveRun_logged h).mono (fun _ _ hw => hw.1) fun _ _ hw => hw

theorem createRun_lives {app : Application host} (h : Lifecycle host m w) (hs : Fresh app s) :
    Lives host (fun _ => Lifecycle host (some s)) (createRun host s) w := by
  apply (ofExcept_lives h _).bind
  rintro _ _ ⟨_, rfl⟩
  apply Prog.Safe.invoke
  intro r w' hn
  cases hn with
  | raises => exact ⟨⟨_, h.create app hs _⟩, _, h.create app hs _⟩
  | created hr hd ha =>
    have hw := (h.created app hs hr (createSync_ok hd).1).create app hs r
    cases r with
    | ok => exact ⟨⟨_, hw⟩, hw⟩
    | error => exact ⟨⟨_, hw⟩, _, hw⟩
  | createdPartly hr hd =>
    have hw := h.halfCreated hd
    exact ⟨⟨_, hw.create app hs _⟩, _, hw.create app hs _⟩

theorem loadRun_lives (h : Lifecycle host m w) (rid : Text) (digest : Option Text)
    (acknowledge : Bool) :
    Lives host (fun s w' => Lifecycle host (some s) w' ∧ loadSync host w'.runId w'.dir = .ok s)
      (loadRun host rid digest acknowledge) w := by
  apply (ofExcept_lives h _).bind
  rintro _ _ ⟨_, rfl⟩
  apply Prog.Safe.bind (Q := fun s w' => Lifecycle host (some s) w' ∧
    loadSync host w'.runId w'.dir = .ok s)
  · apply Prog.Safe.invoke
    intro r w' hn
    cases hn with
    | raises =>
      have hw (e : PyError) : Lifecycle host m (World.push _ (.load rid) (.error e)) := h.quiet rfl
      exact ⟨⟨m, hw _⟩, m, hw _⟩
    | loaded hr hl =>
      subst hr
      have hw := h.loaded hl
      exact ⟨⟨_, hw⟩, hw, hl⟩
  · rintro s w₁ ⟨h₁, hl⟩
    cases digest with
    | none => exact ⟨h₁, hl⟩
    | some digest =>
      simp only
      split
      · exact ⟨_, h₁⟩
      · exact ⟨h₁, hl⟩

/-- Whatever is appended, whether or not the call returns, belongs to the life of the run. -/
theorem appendEvent_lives {e : RunEvent} (h : Lifecycle host m w)
    (ha : ∀ rid x, Lifecycle host m (w.push (.appendEvent rid e) x)) (rid : Text) :
    Lives host (fun _ => Lifecycle host m) (appendEvent host rid e) w := by
  apply (ofExcept_lives h _).bind
  rintro _ _ ⟨_, rfl⟩
  apply Prog.Safe.invoke
  intro r w' hn
  cases hn with
  | raises => exact ⟨⟨_, ha _ _⟩, _, ha _ _⟩
  | appendEvent => exact ⟨⟨_, ha _ _⟩, ha _ _⟩

theorem recordEvent_lives (h : Lifecycle host m w) (s : RunState) (event : Text)
    (workItemId : Option Text) (details : Fields) (he : event ≠ text "work-item-finished") :
    Lives host (fun _ => Lifecycle host m) (recordEvent host s event workItemId details) w := by
  apply (invoke_lives h rfl).bind
  rintro timestamp w₁ ⟨h₁, _⟩
  apply appendEvent_lives h₁
  intro rid x
  have hq : (Call.appendEvent rid ⟨timestamp, event, workItemId, details⟩).quiet = true := by
    rw [Call.quiet, RunEvent.finishes, Bool.not_eq_true', decide_eq_false_iff_not]
    exact he
  exact h₁.quiet (Event.quiet_answered hq x)

theorem writeReport_lives (h : Lifecycle host m w) (s : RunState) :
    Lives host (fun _ => Lifecycle host m) (writeReport host s) w := by
  apply (ofExcept_lives h _).bind
  rintro _ _ ⟨_, rfl⟩
  apply Prog.Safe.bind (Q := fun _ => Lifecycle host m)
  · apply (ofExcept_lives h _).bind
    rintro _ _ ⟨_, rfl⟩
    exact (invoke_lives h rfl).mono (fun _ _ hw => hw.1) fun _ _ hw => hw
  · exact fun _ _ hw => hw

end Store

section Scheduler

theorem Lifecycle.acquired (h : Lifecycle host (some s) w) (ha : s.Acquires r) :
    Lifecycle host (some (s.withResult r)) w := by
  obtain ⟨item, ⟨hb, rfl⟩ | hf⟩ := ha
  · exact h.blocked hb
  · exact h.finished hf

theorem persistResult_lives (h : Lifecycle host (some s) w) (ha : s.Acquires r) :
    Lives host (fun s' w' => s' = s.withResult r ∧ Lifecycle host (some s') w')
      (persistResult host s r) w := by
  apply (saveRun_logged (h.acquired ha)).bind
  rintro _ w₁ ⟨h₁, hlog⟩
  apply (invoke_lives h₁ rfl).bind
  rintro timestamp w₂ ⟨h₂, hn⟩
  let since : List Event := [.answered .now (.ok timestamp),
    .answered (.save (s.withResult r)) (.ok ()), .replaced (s.withResult r)]
  have hlog₂ : w₂.log = since ++ w.log := by
    rw [hn.quiet rfl, World.push_log, hlog]
    rfl
  have hreports : Reports s r w w₂ ⟨timestamp, text "work-item-finished", some r.workItemId,
      [(text "status", enumText r.status)]⟩ := by
    refine ⟨ha, ⟨since, hlog₂, ?_, ?_⟩, rfl, rfl⟩
    · simp [since]
    · simp [since]
  apply (appendEvent_lives h₂ (h.recorded h₂ hreports) _).bind
  exact fun _ _ hw => ⟨rfl, hw⟩

theorem persistBlocked_entries_lives {entries : List (Text × WorkItem)}
    (h : Lifecycle host (some s) w) (hn : (entries.map Prod.fst).Nodup)
    (he : ∀ e ∈ entries, s.workItems.get? e.1 = some e.2 ∧ s.isUnfinished e.1 = true ∧
      e.2.dependencies.any s.hasFailed = true) :
    Lives host (fun s' w' => Lifecycle host (some s') w')
      (persistBlocked host s (entries.map Prod.snd)) w := by
  induction entries generalizing s w with
  | nil => exact h
  | cons e entries ih =>
    obtain ⟨k, item⟩ := e
    obtain ⟨hk, hu, hf⟩ := he _ List.mem_cons_self
    obtain ⟨hnk, hn⟩ := List.nodup_cons.1 hn
    apply Prog.Safe.bind (persistResult_lives h ⟨item, .inl ⟨⟨k, hk, hu, hf⟩, rfl⟩⟩)
    rintro s' w' ⟨rfl, hw⟩
    apply ih hw hn
    rintro ⟨k', item'⟩ hm
    obtain ⟨hk', hu', hf'⟩ := he _ (List.mem_cons_of_mem _ hm)
    have hne : k' ≠ item.id := by
      rintro rfl
      have hid := h.valid.id_eq hk (Dict.mem_keys_of_get? hk')
      exact hnk (List.mem_map.2 ⟨_, hm, hid⟩)
    refine ⟨hk', ?_, ?_⟩
    · rw [RunState.isUnfinished_withResult]
      exact (if_neg hne).trans hu'
    · obtain ⟨d, hd, hfd⟩ := List.any_eq_true.1 hf'
      apply List.any_eq_true.2
      refine ⟨d, hd, ?_⟩
      rw [RunState.hasFailed_withResult]
      split
      · rfl
      · exact hfd

theorem persistBlocked_lives (h : Lifecycle host (some s) w) :
    Lives host (fun s' w' => Lifecycle host (some s') w')
      (persistBlocked host s s.newlyBlocked) w := by
  rw [RunState.newlyBlocked, RunState.pendingItems, List.filter_map]
  apply persistBlocked_entries_lives h
  · apply List.Nodup.sublist _ s.workItems.sorted.keys_nodup
    exact (List.filter_sublist.trans List.filter_sublist).map _
  · rintro ⟨k, item⟩ he
    obtain ⟨he, hf⟩ := List.mem_filter.1 he
    obtain ⟨he, hu⟩ := List.mem_filter.1 he
    have hk := SortedMap.mem_entries.1 he
    rw [Dict.get?_sorted] at hk
    exact ⟨hk, hu, hf⟩

/-- The result of a turn of the item with the given id. -/
def Ended (workItemId : Text) (r : WorkResult) : Prop :=
  r.workItemId = workItemId ∧ (r.status = .succeeded ∨ r.status = .failed)

theorem readerResult_ended {t : Turn} {outcome : Outcome} (h : t.Ends outcome) (item : WorkItem) :
    Ended item.id (readerResult item outcome) := by
  cases outcome with
  | ok r =>
    obtain ⟨threadId, turn, hr⟩ := h
    have hs : r.status = .succeeded := normalizeResult_succeeded hr
    exact ⟨rfl, .inl hs⟩
  | error e => exact ⟨rfl, .inr rfl⟩

/-- Every result collected so far is stored under the item it belongs to. -/
def AllEnded (results : Collected) : Prop := ∀ k r, results.get? k = some r → Ended k r

theorem AllEnded.set {results : Collected} (h : AllEnded results) (hr : Ended k r) :
    AllEnded (results.set k r) := by
  intro k' r' hg
  rw [Dict.get?_set] at hg
  split at hg
  · rename_i he
    cases hg
    exact he ▸ hr
  · exact h k' r' hg

theorem AllEnded.collect {t : Turn} {outcome : Outcome} {results : Collected}
    (h : AllEnded results) (ht : t.Ends outcome) (running : Running) :
    AllEnded (collect running results t outcome) := by
  rw [GoalRouter.collect]
  split
  · exact h
  · exact h.set (readerResult_ended ht _)

theorem awaitTurn_lives (h : Lifecycle host m w) (b : Bool) (running : List Turn) :
    Lives host (fun v w' => Lifecycle host m w' ∧ v.1.Ends v.2)
      (invoke (.awaitTurn b running)) w := by
  apply (invoke_lives h rfl).mono
  · rintro v w' ⟨hw, hn⟩
    cases hn with
    | awaitTurn _ he => exact ⟨hw, he⟩
  · exact fun _ _ hw => hw

theorem drain_lives (h : Lifecycle host m w) (n : Nat) {running : Running} {results : Collected}
    (hr : AllEnded results) (failed : Bool) :
    Lives host (fun v w' => Lifecycle host m w' ∧ AllEnded v.1)
      (drain n running results failed) w := by
  induction n generalizing w running results failed with
  | zero => exact ⟨h, hr⟩
  | succ n ih =>
    apply (awaitTurn_lives h _ _).bind
    rintro ⟨t, outcome⟩ w' ⟨hw, he⟩
    exact ih hw (hr.collect he _) _

theorem gather_lives (h : Lifecycle host m w) (n : Nat) {running : Running} {results : Collected}
    (hr : AllEnded results) :
    Lives host (fun v w' => Lifecycle host m w' ∧ AllEnded v) (gather n running results) w := by
  induction n generalizing w running results with
  | zero => exact ⟨h, hr⟩
  | succ n ih =>
    rw [gather]
    apply Prog.Safe.bind (Q := fun v w' => Lifecycle host m w' ∧
      match v with | .ok (t, outcome) => Turn.Ends t outcome | .error _ => True)
    · apply (invoke_safe h rfl).attempt.mono
      · rintro v w' hw
        cases v with
        | error e => exact ⟨hw, trivial⟩
        | ok v =>
          obtain ⟨hw, hn⟩ := hw
          cases hn with
          | awaitTurn _ he => exact ⟨hw, he⟩
      · exact fun _ _ hw => hw.elim
    · rintro v w' ⟨hw, he⟩
      cases v with
      | error e =>
        apply (drain_lives hw (n + 1) hr false).bind
        rintro ⟨results', failed⟩ w' ⟨hw, hr⟩
        cases failed with
        | true => exact ⟨hw, hr⟩
        | false => exact ⟨_, hw⟩
      | ok v =>
        obtain ⟨t, outcome⟩ := v
        have hc := hr.collect he running
        simp only
        split
        · apply (drain_lives hw n hc true).bind
          exact fun _ _ hw => hw
        · exact ih hw hc

/-- The item was validated before, under the routes of the state. -/
def Validated (s : RunState) (w : World) (item : WorkItem) : Prop :=
  ∃ s₀ r, .answered (.note (.validated s₀ item.id)) r ∈ w.log ∧ s₀.routes = s.routes

theorem Validated.mono (h : Validated s w item) (hl : ∀ e ∈ w.log, e ∈ w'.log) :
    Validated s w' item := by
  obtain ⟨s₀, r, hm, hs⟩ := h
  exact ⟨s₀, r, hl _ hm, hs⟩

theorem dispatching_lives (h : Lifecycle host (some s) w) (hd : item ∈ s.dispatchable host) :
    Lives host (fun _ w' => Lifecycle host (some s) w' ∧ ∀ e ∈ w.log, e ∈ w'.log)
      (note (.dispatching s item)) w := by
  apply Prog.Safe.invoke
  intro r w' hn
  cases hn with
  | raises hc => cases hc
  | note =>
    have hw := h.dispatching hd
    exact ⟨⟨_, hw⟩, hw, fun e he => List.mem_cons_of_mem _ he⟩

theorem startTurn_lives (h : Lifecycle host (some s) w) (hd : item ∈ s.dispatchable host)
    (ht : dispatchTurn host s item = .ok t) (hv : Validated s w item) :
    Lives host (fun _ w' => Lifecycle host (some s) w' ∧ ∀ e ∈ w.log, e ∈ w'.log)
      (invoke (.startTurn t)) w := by
  apply Prog.Safe.invoke
  intro r w' hn
  cases hn with
  | raises hc => cases hc
  | startTurn =>
    have hw := h.started hd ht hv
    exact ⟨⟨_, hw⟩, hw, fun e he => List.mem_cons_of_mem _ he⟩

theorem runOne_lives (h : Lifecycle host (some s) w) (hd : item ∈ s.dispatchable host)
    (hv : Validated s w item) :
    Lives host (fun r w' => Lifecycle host (some s) w' ∧ Ended item.id r)
      (runOne host s item) w := by
  rw [runOne]
  cases ht : dispatchTurn host s item with
  | error e => exact ⟨h, rfl, .inr rfl⟩
  | ok t =>
    apply (dispatching_lives h hd).bind
    rintro _ w₁ ⟨h₁, hl⟩
    apply (startTurn_lives h₁ hd ht (hv.mono hl)).bind
    rintro _ w₂ ⟨h₂, _⟩
    apply (invoke_lives h₂ rfl).bind
    rintro ⟨t', outcome⟩ w₃ ⟨h₃, hn⟩
    cases hn with
    | awaitTurn hm he =>
      cases outcome with
      | ok r =>
        have hr := readerResult_ended he item
        exact ⟨h₃, hr⟩
      | error e =>
        simp only
        split
        · exact ⟨_, h₃⟩
        · exact ⟨h₃, rfl, .inr rfl⟩

theorem startBatch_lives (h : Lifecycle host (some s) w) {items : List WorkItem}
    (hd : ∀ item ∈ items, item ∈ s.dispatchable host) (hv : ∀ item ∈ items, Validated s w item)
    {running : Running} {results : Collected} (hr : AllEnded results) (failed : Bool) :
    Lives host (fun v w' => Lifecycle host (some s) w' ∧ AllEnded v.2.1)
      (startBatch host s items running results failed) w := by
  induction items generalizing w running results failed with
  | nil => exact ⟨h, hr⟩
  | cons item items ih =>
    obtain ⟨hi, hd⟩ := List.forall_mem_cons.1 hd
    obtain ⟨hvi, hv⟩ := List.forall_mem_cons.1 hv
    rw [startBatch]
    cases ht : dispatchTurn host s item with
    | error e =>
      have hi : Ended item.id (readerResult item (.error e)) := ⟨rfl, .inr rfl⟩
      exact ih h hd hv (hr.set hi) true
    | ok t =>
      apply (dispatching_lives h hi).bind
      rintro _ w₁ ⟨h₁, hl₁⟩
      apply (startTurn_lives h₁ hi ht (hvi.mono hl₁)).bind
      rintro _ w₂ ⟨h₂, hl₂⟩
      exact ih h₂ hd (fun i hm => ((hv i hm).mono hl₁).mono hl₂) hr failed

/-- The results of a batch, in the order of its items. -/
def BatchEnded (items : List WorkItem) (results : List WorkResult) : Prop :=
  List.Forall₂ (fun item r => Ended item.id r) items results

theorem mapM_results_lives (h : Lifecycle host m w) {results : Collected} (hr : AllEnded results)
    (items : List WorkItem) :
    Lives host (fun rs w' => Lifecycle host m w' ∧ BatchEnded items rs)
      (items.mapM fun item => match results.get? item.id with
        | some r => pure r
        | none => raise ⟨.keyError, host.repr item.id⟩) w := by
  induction items with
  | nil => exact ⟨h, .nil⟩
  | cons item items ih =>
    rw [List.mapM_cons]
    cases hg : results.get? item.id with
    | none => exact ⟨m, h⟩
    | some r =>
      simp only [pure_bind]
      apply ih.bind
      rintro rs w' ⟨hw, hrs⟩
      exact ⟨hw, .cons (hr _ _ hg) hrs⟩

theorem runReadBatch_lives (h : Lifecycle host (some s) w) {items : List WorkItem}
    (hd : ∀ item ∈ items, item ∈ s.dispatchable host) (hv : ∀ item ∈ items, Validated s w item) :
    Lives host (fun rs w' => Lifecycle host (some s) w' ∧ BatchEnded items rs)
      (runReadBatch host s items) w := by
  have hempty : AllEnded ∅ := fun _ _ hg => by cases hg
  apply (startBatch_lives h hd hv hempty false).bind
  rintro ⟨running, results, failed⟩ w₁ ⟨h₁, hr⟩
  cases failed with
  | true =>
    apply Prog.Safe.bind (Q := fun v w' => Lifecycle host (some s) w' ∧ AllEnded v)
    · apply (drain_lives h₁ _ hr true).bind
      exact fun _ _ hw => hw
    · rintro results w₂ ⟨h₂, hr⟩
      exact mapM_results_lives h₂ hr items
  | false =>
    apply (gather_lives h₁ _ hr).bind
    rintro results w₂ ⟨h₂, hr⟩
    exact mapM_results_lives h₂ hr items

/-- The items of a batch can be finished one after the other. -/
theorem persistResults_lives {items : List WorkItem} {results : List WorkResult}
    (h : Lifecycle host (some s) w) (hr : BatchEnded items results)
    (hn : (items.map WorkItem.id).Nodup)
    (hi : ∀ item ∈ items, s.workItems.get? item.id = some item ∧ s.isUnfinished item.id = true ∧
      item.dependencies.all s.hasSucceeded = true) :
    Lives host (fun s' w' => Lifecycle host (some s') w')
      (results.foldlM (persistResult host) s) w := by
  induction hr generalizing s w with
  | nil => exact h
  | @cons item r items results hr _ ih =>
    obtain ⟨hni, hn⟩ := List.nodup_cons.1 hn
    obtain ⟨⟨hg, hu, hs⟩, hi⟩ := List.forall_mem_cons.1 hi
    have hf : s.Finishable item r := ⟨hg, hu, hs, hr.1, hr.2⟩
    apply Prog.Safe.bind (persistResult_lives h ⟨item, .inr hf⟩)
    rintro s' w' ⟨rfl, hw⟩
    apply ih hw hn
    intro item' hm
    obtain ⟨hg', hu', hs'⟩ := hi item' hm
    have hne : item'.id ≠ r.workItemId := by
      rw [hr.1]
      exact fun he => hni (List.mem_map.2 ⟨item', hm, he⟩)
    refine ⟨hg', ?_, ?_⟩
    · rw [RunState.isUnfinished_withResult, if_neg hne]
      exact hu'
    · apply List.all_eq_true.2
      intro d hd
      have hsd := List.all_eq_true.1 hs' d hd
      have hned : d ≠ r.workItemId := by
        rintro rfl
        rw [hr.1] at hsd
        rw [RunState.not_unfinished_of_succeeded hsd] at hu
        cases hu
      rw [RunState.hasSucceeded_withResult, if_neg hned]
      exact hsd

theorem nodup_dispatchable {s : RunState} (hid : ∀ k item, s.workItems.get? k = some item →
    item ∈ s.dispatchable host → k = item.id) : ((s.dispatchable host).map WorkItem.id).Nodup := by
  have hp : s.dispatchable host = ((s.workItems.sorted.entries.filter fun e =>
      s.isUnfinished e.1).filter fun e => e.2.dependencies.all s.hasSucceeded &&
        s.isApproved host e.2.id).map Prod.snd := by
    rw [RunState.dispatchable, RunState.pendingItems, List.filter_map]
    rfl
  have hk : (s.dispatchable host).map WorkItem.id = ((s.workItems.sorted.entries.filter fun e =>
      s.isUnfinished e.1).filter fun e => e.2.dependencies.all s.hasSucceeded &&
        s.isApproved host e.2.id).map Prod.fst := by
    rw [hp, List.map_map]
    apply List.map_congr_left
    rintro ⟨k, item⟩ hm
    have hd : item ∈ s.dispatchable host := hp ▸ List.mem_map.2 ⟨_, hm, rfl⟩
    have he := (List.mem_filter.1 (List.mem_filter.1 hm).1).1
    have hg := SortedMap.mem_entries.1 he
    rw [Dict.get?_sorted] at hg
    exact (hid k item hg hd).symm
  rw [hk]
  apply List.Nodup.sublist _ s.workItems.sorted.keys_nodup
  exact (List.filter_sublist.trans List.filter_sublist).map _

theorem dispatchable_nodup {s : RunState} (h : s.Valid) :
    ((s.dispatchable host).map WorkItem.id).Nodup :=
  nodup_dispatchable fun _ _ hk hd =>
    (h.id_eq hk (Dict.mem_keys_of_get? (h.dispatchable hd).1)).symm

theorem runReaders_lives (h : Lifecycle host (some s) w) {batch : List WorkItem}
    (hb : batch.Sublist (s.dispatchable host)) (hv : ∀ item ∈ batch, Validated s w item) :
    Lives host (fun s' w' => Lifecycle host (some s') w') (runReaders host s batch) w := by
  have hd (item : WorkItem) (hm : item ∈ batch) : item ∈ s.dispatchable host := hb.mem hm
  have hw : Lifecycle host (some { s with status := .running }) w := h.statusSet (.inr rfl)
  apply (runReadBatch_lives hw hd hv).bind
  rintro results w₁ ⟨h₁, hr⟩
  apply persistResults_lives h₁ hr
  · exact (dispatchable_nodup h.valid).sublist (hb.map _)
  · intro item hm
    have hg := h.valid.dispatchable (hd item hm)
    exact ⟨hg.1, hg.2, List.all_eq_true.2 (RunState.mem_dispatchable.1 (hd item hm)).2.1⟩

theorem validated_lives {workItemId : Text} (h : Lifecycle host (some s) w)
    (hd : requireDispatchable host s workItemId = .ok ()) :
    Lives host (fun _ w' => Lifecycle host (some s) w' ∧ (∀ e ∈ w.log, e ∈ w'.log) ∧
      .answered (.note (.validated s workItemId)) (.ok ()) ∈ w'.log)
      (note (.validated s workItemId)) w := by
  apply Prog.Safe.invoke
  intro r w' hn
  cases hn with
  | raises hc => cases hc
  | note =>
    have hw := h.validated hd
    exact ⟨⟨_, hw⟩, hw, fun e he => List.mem_cons_of_mem _ he, List.mem_cons_self⟩

theorem writerBody_lives (h : Lifecycle host (some s) w) (hd : item ∈ s.dispatchable host) :
    Lives host (fun s' w' => Lifecycle host (some s') w') (writerBody host s item) w := by
  apply (ofExcept_lives h _).bind
  rintro _ w ⟨ha, rfl⟩
  apply (validated_lives h ha).bind
  rintro _ w₁ ⟨h₁, _, hm⟩
  have hw : Lifecycle host (some { s with status := .running }) w₁ := h₁.statusSet (.inr rfl)
  apply (runOne_lives hw hd ⟨s, _, hm, rfl⟩).bind
  rintro r w₂ ⟨h₂, hr⟩
  have hg := h.valid.dispatchable hd
  have hs := List.all_eq_true.2 (RunState.mem_dispatchable.1 hd).2.1
  have hf : RunState.Finishable { s with status := .running } item r :=
    ⟨hg.1, hg.2, hs, hr.1, hr.2⟩
  exact (persistResult_lives h₂ ⟨item, .inr hf⟩).mono (fun _ _ hw => hw.2) fun _ _ hw => hw

theorem leasedWriter_lives (h : Lifecycle host (some s) w) (hd : item ∈ s.dispatchable host) :
    Lives host (fun s' w' => Lifecycle host (some s') w') (do
      invoke (.acquireProject s.objective.projectPath)
      (writerBody host s item).ensure (invoke (.releaseProject s.objective.projectPath))) w := by
  apply (invoke_lives h rfl).bind
  rintro _ w₁ ⟨h₁, _⟩
  apply (writerBody_lives h₁ hd).ensure
  · intro s' w' hw
    exact (invoke_lives hw rfl).mono (fun _ _ hw => hw.1) fun _ _ hw => hw
  · rintro e w' ⟨m, hw⟩
    exact (invoke_lives hw rfl).mono (fun _ _ hw => ⟨m, hw.1⟩) fun _ _ hw => hw

theorem runWriter_lives (h : Lifecycle host (some s) w) (hd : item ∈ s.dispatchable host) :
    Lives host (fun s' w' => Lifecycle host (some s') w') (runWriter host s item) w := by
  rw [runWriter]
  split
  · have hw : Lifecycle host (some { s with status := .planned }) w := h.statusSet (.inl rfl)
    simp only [bind_assoc, pure_bind]
    apply (saveRun_lives hw).bind
    exact fun _ _ hw => leasedWriter_lives hw hd
  · exact leasedWriter_lives h hd

theorem forM_validated_lives (h : Lifecycle host (some s) w) {ready : List WorkItem}
    (hd : ∀ item ∈ ready, item ∈ s.dispatchable host) :
    Lives host (fun _ w' => Lifecycle host (some s) w' ∧ (∀ e ∈ w.log, e ∈ w'.log) ∧
      ∀ item ∈ ready, Validated s w' item)
      (ready.forM fun item => note (.validated s item.id)) w := by
  induction ready generalizing w with
  | nil => exact ⟨h, fun e he => he, fun _ hm => absurd hm List.not_mem_nil⟩
  | cons item ready ih =>
    obtain ⟨hi, hd⟩ := List.forall_mem_cons.1 hd
    rw [List.forM]
    apply (validated_lives h (RunState.mem_dispatchable.1 hi).2.2).bind
    rintro _ w₁ ⟨h₁, hl, hm⟩
    apply (ih h₁ hd).mono
    · rintro _ w₂ ⟨h₂, hl₂, hv⟩
      have hvi : Validated s w₂ item := ⟨s, _, hl₂ _ hm, rfl⟩
      exact ⟨h₂, fun e he => hl₂ e (hl e he), List.forall_mem_cons.2 ⟨hvi, hv⟩⟩
    · exact fun _ _ hw => hw

theorem passing_lives (h : Lifecycle host (some s) w) :
    Lives host (fun _ w' => Lifecycle host (some s) w') (note (.passing s)) w := by
  apply Prog.Safe.invoke
  intro r w' hn
  cases hn with
  | raises hc => cases hc
  | note => exact ⟨⟨_, h.passing⟩, h.passing⟩

theorem runLoop_lives (h : Lifecycle host (some s) w) (maxRead n : Nat) :
    Lives host (fun s' w' => Lifecycle host (some s') w') (runLoop host maxRead n s) w := by
  induction n generalizing s w with
  | zero => exact h
  | succ n ih =>
    apply (passing_lives h).bind
    intro _ w₁ h₁
    apply (persistBlocked_lives h₁).bind
    intro s w₂ h₂
    simp only
    split
    · exact h₂
    · apply (forM_validated_lives h₂ fun _ hm => hm).bind
      rintro _ w₃ ⟨h₃, _, hv⟩
      split
      · rename_i item hf
        apply (runWriter_lives h₃ (List.mem_of_find?_eq_some hf)).bind
        exact fun s w hw => ih hw
      · have hb := List.take_sublist maxRead (s.dispatchable host)
        apply (runReaders_lives h₃ hb fun i hm => hv i (hb.mem hm)).bind
        exact fun s w hw => ih hw

theorem conclude_lives (h : Lifecycle host (some s) w) :
    Lives host (fun s' w' => Lifecycle host (some s') w') (conclude host s) w := by
  apply Prog.Safe.bind (Q := fun _ w' => Lifecycle host (some s) w' ∧
    .answered (.note (.concluding s)) (.ok ()) ∈ w'.log)
  · apply Prog.Safe.invoke
    intro r w' hn
    cases hn with
    | raises hc => cases hc
    | note => exact ⟨⟨_, h.concluding⟩, h.concluding, List.mem_cons_self⟩
  · rintro _ w₁ ⟨h₁, hm⟩
    apply (ofExcept_lives h₁ _).bind
    rintro status _ ⟨hf, rfl⟩
    simp only
    split
    · exact h₁
    · apply (saveRun_lives (h₁.concluded hm hf)).bind
      exact fun _ _ hw => hw

theorem runReady_lives (h : Lifecycle host (some s) w) (maxRead : Nat) :
    Lives host (fun s' w' => Lifecycle host (some s') w') (runReady host maxRead s) w := by
  apply (runLoop_lives h maxRead _).bind
  exact fun _ _ hw => conclude_lives hw

end Scheduler

end GoalRouter
