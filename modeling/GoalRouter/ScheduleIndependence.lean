import GoalRouter.Library.Saturation
import GoalRouter.PlanCompletion
import GoalRouter.StoreCalls

namespace GoalRouter
open Library
set_option autoImplicit true

/-- How the world answers where every turn that is waited for succeeds, with a result that the turn
alone determines. -/
inductive Answering (host : Host) (answer : Turn → WorkResult) :
    World → (c : Call) → Except PyError (Val c) → World → Prop where
  | turn (hn : Next host w (.awaitTurn b running) (.ok (t, .ok (answer t))) w') :
      Answering host answer w (.awaitTurn b running) (.ok (t, .ok (answer t))) w'
  | other (hn : Next host w c r w') (hc : ∀ b running, c ≠ .awaitTurn b running) :
      Answering host answer w c r w'

variable {host : Host} {answer : Turn → WorkResult}

theorem Answering.next (h : Answering host answer w c r w') : Next host w c r w' := by
  cases h with
  | turn hn => exact hn
  | other hn _ => exact hn

/-- Calls that leave the directory as it is. -/
def Call.keepsDir : Call → Bool
  | .create _ | .save _ => false
  | _ => true

/-- A program that writes no snapshot. -/
abbrev KeepsDir (p : Program α) : Prop := p.Only fun c => c.keepsDir = true

theorem Next.dir_kept (h : Next host w c r w') (hc : c.keepsDir = true) : w'.dir = w.dir := by
  cases h <;> first | rfl | cases hc

theorem Consults.keepsDir {p : Program α} (h : Consults p) : KeepsDir p := by
  apply Prog.Only.mono h
  intro c hc
  cases c <;> first | rfl | cases hc

/-- Run where the directory satisfies `I`, the program keeps it so, and returns nothing but what
satisfies `Q`. -/
def Yields (host : Host) (answer : Turn → WorkResult) (I : RunDir → Prop) (Q : α → Prop)
    (p : Program α) : Prop :=
  ∀ w, I w.dir → p.Safe (Answering host answer) (fun w => I w.dir) (fun a w => Q a ∧ I w.dir)
    (fun _ w => I w.dir) w

variable {I : RunDir → Prop}

namespace Yields

theorem mono {p : Program α} (h : Yields host answer I Q p) (hQ : ∀ a, Q a → Q' a) :
    Yields host answer I Q' p :=
  fun w hw => (h w hw).mono (fun a _ ha => ⟨hQ a ha.1, ha.2⟩) fun _ _ h => h

theorem bind {p : Program α} {f : α → Program β} (h : Yields host answer I Q p)
    (hf : ∀ a, Q a → Yields host answer I Q' (f a)) : Yields host answer I Q' (p >>= f) :=
  fun w hw => (h w hw).bind fun a w' ha => hf a ha.1 w' ha.2

theorem pure {a : α} (h : Q a) : Yields host answer I Q (Pure.pure a) := fun _ hw => ⟨h, hw⟩

theorem keeps {p : Program α} (h : KeepsDir p) : Yields host answer I (fun _ => True) p := by
  intro w hw
  have hstep (w : World) (c : Call) (r : Except PyError (Val c)) (w' : World)
      (hc : c.keepsDir = true) (hn : Answering host answer w c r w') (hw : I w.dir) : I w'.dir := by
    rwa [hn.next.dir_kept hc]
  exact (h.safe hstep hw).mono (fun _ _ h => ⟨trivial, h⟩) fun _ _ h => h

theorem ensure {p : Program α} {fin : Program Unit} (h : Yields host answer I Q p)
    (hf : KeepsDir fin) : Yields host answer I Q (p.ensure fin) := by
  intro w hw
  have hfin {w : World} (hw : I w.dir) := (keeps hf : Yields host answer I _ fin) w hw
  apply (h w hw).ensure
  · exact fun a w' ha => (hfin ha.2).mono (fun _ _ h => ⟨ha.1, h.2⟩) fun _ _ h => h
  · exact fun _ w' hw' => (hfin hw').mono (fun _ _ h => h.2) fun _ _ h => h

/-- What was shown of its returns in every world holds in one that answers so. -/
theorem of_within {p : Program α} (h : ∀ w, Within host w.passed Q p w)
    (hk : Yields host answer I (fun _ => True) p) : Yields host answer I Q p := by
  intro w hw
  have hr := (h w).restrict fun _ _ _ _ (hn : Answering host answer _ _ _ _) => hn.next
  apply ((hr.and (hk w hw)).weaken fun _ h => h.2).mono
  · exact fun _ _ h => ⟨h.1.2, h.2.2⟩
  · exact fun _ _ h => h.2

end Yields

/-- The result that the turn of an item leaves behind. -/
def turnResult (host : Host) (answer : Turn → WorkResult) (s : RunState) (item : WorkItem) :
    WorkResult :=
  match dispatchTurn host s item with
  | .ok t => readerResult item (.ok (answer t))
  | .error e => readerResult item (.error e)

theorem turnResult_ok {s : RunState} (h : dispatchTurn host s item = .ok t) :
    turnResult host answer s item = readerResult item (.ok (answer t)) := by
  rw [turnResult, h]

section Turns

variable {s : RunState}

theorem awaitTurn_answers (b : Bool) (running : List Turn) (hw : I w.dir) :
    (invoke (.awaitTurn b running)).Safe (Answering host answer) (fun w => I w.dir)
      (fun v w => (∃ t ∈ running, v = (t, .ok (answer t)) ∧ (answer t).status = .succeeded) ∧
        I w.dir)
      (fun _ _ => False) w := by
  apply Prog.Safe.invoke
  intro r w' hn
  cases hn with
  | other _ hc => exact absurd rfl (hc b running)
  | turn hn =>
    cases hn with
    | awaitTurn hm he =>
      obtain ⟨threadId, turn, hr⟩ := he
      exact ⟨hw, ⟨_, hm, rfl, normalizeResult_succeeded hr⟩, hw⟩

/-- The result of an item, from a turn that succeeded. -/
def Delivers (host : Host) (answer : Turn → WorkResult) (s : RunState) (item : WorkItem)
    (r : WorkResult) : Prop :=
  r = turnResult host answer s item ∧ r.workItemId = item.id ∧ r.status = .succeeded

theorem delivers (h : dispatchTurn host s item = .ok t) (hs : (answer t).status = .succeeded) :
    Delivers host answer s item (readerResult item (.ok (answer t))) :=
  ⟨(turnResult_ok h).symm, rfl, hs⟩

theorem runOne_yields (h : dispatchTurn host s item = .ok t) :
    Yields host answer I (Delivers host answer s item) (runOne host s item) := by
  rw [runOne, h]
  apply (Yields.keeps (Prog.Only.invoke rfl)).bind
  intro _ _
  apply (Yields.keeps (Prog.Only.invoke rfl)).bind
  intro _ _ w hw
  apply Prog.Safe.bind ((awaitTurn_answers false [t] hw).mono (fun _ _ h => h) fun _ _ h => h.elim)
  rintro _ w' ⟨⟨t', hm, rfl, hs⟩, hw'⟩
  cases List.mem_singleton.1 hm
  exact ⟨delivers h hs, hw'⟩

/-- Every item of a batch is running its turn, or has its result. -/
structure Gathering (host : Host) (answer : Turn → WorkResult) (s : RunState)
    (items : List WorkItem) (running : Running) (results : Collected) : Prop where
  turns : ∀ p ∈ running, p.1 ∈ items ∧ dispatchTurn host s p.1 = .ok p.2
  covered : ∀ item ∈ items, (∃ t, (item, t) ∈ running) ∨
    ∃ r, results.get? item.id = some r ∧ Delivers host answer s item r

theorem Gathering.collect {items : List WorkItem} {running : Running} {results : Collected}
    (h : Gathering host answer s items running results) (hn : (items.map WorkItem.id).Nodup)
    (hm : t ∈ running.turns) (hs : (answer t).status = .succeeded) :
    Gathering host answer s items (running.remove t)
      (collect running results t (.ok (answer t))) := by
  obtain ⟨item, before, after, hsplit, hremove, hf⟩ := Running.exists_remove hm
  have hsub (p : WorkItem × Turn) (hp : p ∈ before ++ after) : p ∈ running := by
    rw [hsplit]
    rcases List.mem_append.1 hp with hp | hp
    · exact List.mem_append_left _ hp
    · exact List.mem_append_right _ (List.mem_cons_of_mem _ hp)
  have hitem : item ∈ items ∧ dispatchTurn host s item = .ok t :=
    h.turns (item, t) (hsplit ▸ List.mem_append_right _ List.mem_cons_self)
  rw [GoalRouter.collect, hf, hremove]
  refine ⟨fun p hp => h.turns p (hsub p hp), fun other ho => ?_⟩
  by_cases he : other.id = item.id
  · cases List.inj_on_of_nodup_map hn ho hitem.1 he
    refine .inr ⟨_, ?_, delivers hitem.2 hs⟩
    simp only [Dict.get?_set, if_pos]
  · rcases h.covered other ho with ⟨t', ht⟩ | ⟨r, hg, hr⟩
    · refine .inl ⟨t', ?_⟩
      rw [hsplit, List.mem_append, List.mem_cons] at ht
      rcases ht with ht | ht | ht
      · exact List.mem_append_left _ ht
      · cases ht
        exact absurd rfl he
      · exact List.mem_append_right _ ht
    · refine .inr ⟨r, ?_, hr⟩
      simp only [Dict.get?_set, if_neg he]
      exact hg

theorem gather_yields {items : List WorkItem} (n : Nat) {running : Running} {results : Collected}
    (hn : (items.map WorkItem.id).Nodup) (hl : running.length = n)
    (h : Gathering host answer s items running results) :
    Yields host answer I (Gathering host answer s items []) (gather n running results) := by
  induction n generalizing running results with
  | zero =>
    rw [List.eq_nil_of_length_eq_zero hl] at h
    exact Yields.pure h
  | succ n ih =>
    intro w hw
    rw [gather]
    apply Prog.Safe.attempt_bind (awaitTurn_answers true running.turns hw)
    rintro r w' hr
    cases r with
    | error e => exact hr.elim
    | ok v =>
      obtain ⟨⟨t, hm, rfl, hs⟩, hw'⟩ := hr
      exact ih (Running.length_remove hm hl) (h.collect hn hm hs) w' hw'

theorem startBatch_yields {items rest : List WorkItem} {running : Running} {results : Collected}
    (hr : rest ⊆ items) (ht : ∀ item ∈ items, ∃ t, dispatchTurn host s item = .ok t)
    (h : ∀ p ∈ running, p.1 ∈ items ∧ dispatchTurn host s p.1 = .ok p.2)
    (hc : ∀ item ∈ items, item ∈ rest ∨ ∃ t, (item, t) ∈ running) :
    Yields host answer I (fun v => v.2.2 = false ∧ Gathering host answer s items v.1 v.2.1)
      (startBatch host s rest running results false) := by
  induction rest generalizing running with
  | nil =>
    refine Yields.pure ⟨rfl, h, fun item hi => .inl ?_⟩
    exact (hc item hi).resolve_left List.not_mem_nil
  | cons item rest ih =>
    obtain ⟨hi, hr⟩ := List.cons_subset.1 hr
    obtain ⟨t, hd⟩ := ht item hi
    rw [startBatch, hd]
    apply (Yields.keeps (Prog.Only.invoke rfl)).bind
    intro _ _
    apply (Yields.keeps (Prog.Only.invoke rfl)).bind
    intro _ _
    apply ih hr
    · intro p hp
      rcases List.mem_append.1 hp with hp | hp
      · exact h p hp
      · rw [List.mem_singleton.1 hp]
        exact ⟨hi, hd⟩
    · intro other ho
      rcases hc other ho with hm | ⟨t', hm⟩
      · rcases List.mem_cons.1 hm with rfl | hm
        · exact .inr ⟨t, List.mem_append_right _ (List.mem_singleton_self _)⟩
        · exact .inl hm
      · exact .inr ⟨t', List.mem_append_left _ hm⟩

theorem mapM_results_yields {items : List WorkItem} {results : Collected}
    (h : ∀ item ∈ items, ∃ r, results.get? item.id = some r ∧ Delivers host answer s item r) :
    Yields host answer I (List.Forall₂ (Delivers host answer s) items)
      (items.mapM fun item => match results.get? item.id with
        | some r => pure r
        | none => raise ⟨.keyError, host.repr item.id⟩) := by
  induction items with
  | nil => exact Yields.pure .nil
  | cons item items ih =>
    obtain ⟨⟨r, hg, hr⟩, h⟩ := List.forall_mem_cons.1 h
    rw [List.mapM_cons, hg]
    apply (Yields.pure hr).bind
    intro r hr
    apply (ih h).bind
    exact fun rs hrs => Yields.pure (.cons hr hrs)

/-- A batch of readers returns the results of its items, in whichever order its turns end. -/
theorem runReadBatch_yields {items : List WorkItem} (hn : (items.map WorkItem.id).Nodup)
    (ht : ∀ item ∈ items, ∃ t, dispatchTurn host s item = .ok t) :
    Yields host answer I (List.Forall₂ (Delivers host answer s) items)
      (runReadBatch host s items) := by
  apply (startBatch_yields (List.Subset.refl items) ht (fun _ hp => absurd hp List.not_mem_nil)
    fun _ hi => .inl hi).bind
  rintro ⟨running, results, _⟩ ⟨rfl, h⟩
  apply (gather_yields _ hn rfl h).bind
  intro results h
  apply mapM_results_yields
  intro item hi
  rcases h.covered item hi with ⟨_, hm⟩ | hr
  · exact absurd hm List.not_mem_nil
  · exact hr

end Turns

/-- An item may run once all it depends on has succeeded: it is unfinished and needs no approval, or
has it. -/
def RunState.MayFollow (host : Host) (s : RunState) (k : Text) (dependencies : List Text) : Prop :=
  ∃ item, s.workItems.get? k = some item ∧ s.isUnfinished k = true ∧
    requireDispatchable host s k = .ok () ∧ dependencies = item.dependencies

/-- What succeeds in the end, in a run where every turn does. -/
abbrev RunState.Attainable (host : Host) (s : RunState) : Text → Prop :=
  Derives (fun k => s.hasSucceeded k = true) (s.MayFollow host)

/-- The result of an attainable item that was unfinished. -/
structure RunState.Attains (host : Host) (answer : Turn → WorkResult) (s : RunState) (k : Text)
    (r : WorkResult) : Prop where
  item : ∃ item, s.workItems.get? k = some item ∧ r = turnResult host answer s item
  unfinished : s.isUnfinished k = true
  attainable : s.Attainable host k
  succeeded : r.status = .succeeded

/-- A state that a run has come to: it has more results, each of an attainable item. -/
structure RunState.Reaches (host : Host) (answer : Turn → WorkResult) (s₀ s : RunState) :
    Prop where
  rest : s = { s₀ with results := s.results, status := s.status }
  results : ∀ k, s.results.get? k = s₀.results.get? k ∨
    ∃ r, s.results.get? k = some r ∧ s₀.Attains host answer k r

namespace RunState

variable {s₀ s : RunState}

theorem Reaches.refl (s : RunState) : s.Reaches host answer s := ⟨rfl, fun _ => .inl rfl⟩

theorem Reaches.setStatus (h : s₀.Reaches host answer s) (status : RunStatus) :
    s₀.Reaches host answer { s with status } := by
  refine ⟨?_, h.results⟩
  rw [h.rest]

theorem Reaches.workItems (h : s₀.Reaches host answer s) : s.workItems = s₀.workItems := by
  rw [h.rest]

theorem Reaches.requireDispatchable (h : s₀.Reaches host answer s) (k : Text) :
    requireDispatchable host s k = requireDispatchable host s₀ k := by
  rw [h.rest]
  rfl

theorem Reaches.hasSucceeded (h : s₀.Reaches host answer s) (hk : s.hasSucceeded k = true) :
    s₀.Attainable host k := by
  rcases h.results k with hg | ⟨r, _, hr⟩
  · rw [RunState.hasSucceeded, hg] at hk
    exact .start hk
  · exact hr.attainable

theorem Reaches.kept (h : s₀.Reaches host answer s) (hk : s₀.hasSucceeded k = true) :
    s.hasSucceeded k = true := by
  rcases h.results k with hg | ⟨r, hg, hr⟩
  · rwa [RunState.hasSucceeded, hg]
  · exact hasSucceeded_iff.2 ⟨r, hg, hr.succeeded⟩

theorem Reaches.unfinished (h : s₀.Reaches host answer s) (hk : s.isUnfinished k = true) :
    s.results.get? k = s₀.results.get? k := by
  rcases h.results k with hg | ⟨r, hg, hr⟩
  · exact hg
  · have ht := isUnfinished_iff.1 hk r hg
    rw [hr.succeeded] at ht
    cases ht

theorem Reaches.isUnfinished (h : s₀.Reaches host answer s) (hk : s.isUnfinished k = true) :
    s₀.isUnfinished k = true := by
  rwa [RunState.isUnfinished, h.unfinished hk] at hk

/-- No item fails in such a run, so none comes to be blocked. -/
theorem Reaches.newlyBlocked (h : s₀.Reaches host answer s) (hn : s₀.newlyBlocked = []) :
    s.newlyBlocked = [] := by
  rw [newlyBlocked_nil] at hn ⊢
  intro item hp d hd
  obtain ⟨k, hk, hu⟩ := mem_pendingItems.1 hp
  rw [h.workItems] at hk
  have hf := hn item (mem_pendingItems.2 ⟨k, hk, h.isUnfinished hu⟩) d hd
  rcases h.results d with hg | ⟨r, hg, hr⟩
  · rwa [hasFailed, hg]
  · rw [hasFailed, hg]
    show r.status.isDependencyFailure = false
    rw [hr.succeeded]
    rfl

theorem Reaches.turnResult (h : s₀.Reaches host answer s) (hk : s.isUnfinished item.id = true) :
    turnResult host answer s item = turnResult host answer s₀ item := by
  have ht : dispatchTurn host s item = dispatchTurn host s₀ item := by
    rw [dispatchTurn, dispatchTurn, h.unfinished hk]
    rw [h.rest]
    rfl
  rw [GoalRouter.turnResult, GoalRouter.turnResult, ht]

theorem Reaches.attains (h : s₀.Reaches host answer s) (hk : s₀.Keyed)
    (hd : item ∈ s.dispatchable host) (hr : Delivers host answer s item r) :
    s₀.Attains host answer item.id r := by
  obtain ⟨hp, hs, ha⟩ := mem_dispatchable.1 hd
  obtain ⟨k, hg, hu⟩ := mem_pendingItems.1 hp
  rw [h.workItems] at hg
  cases hk k item hg
  refine ⟨⟨item, hg, ?_⟩, h.isUnfinished hu, ?_, hr.2.2⟩
  · rw [hr.1, h.turnResult hu]
  · rw [h.requireDispatchable] at ha
    apply Derives.rule ⟨item, hg, h.isUnfinished hu, ha, rfl⟩
    exact fun d hd => h.hasSucceeded (hs d hd)

theorem delivered_of_mem {batch : List WorkItem} {results : List WorkResult}
    (h : List.Forall₂ (Delivers host answer s) batch results) (hr : r ∈ results) :
    ∃ item ∈ batch, Delivers host answer s item r := by
  induction h with
  | nil => cases hr
  | cons hd _ ih =>
    rcases List.mem_cons.1 hr with rfl | hr
    · exact ⟨_, List.mem_cons_self, hd⟩
    · obtain ⟨item, hi, hd⟩ := ih hr
      exact ⟨item, List.mem_cons_of_mem _ hi, hd⟩

/-- The results of dispatchable items lead on. -/
theorem Reaches.withResults {batch : List WorkItem} {results : List WorkResult}
    (h : s₀.Reaches host answer s) (hk : s₀.Keyed)
    (hd : ∀ item ∈ batch, item ∈ s.dispatchable host)
    (hr : List.Forall₂ (Delivers host answer s) batch results) :
    s₀.Reaches host answer (results.foldl withResult s) := by
  obtain ⟨d, hfold⟩ := foldl_withResult_eq s results
  refine ⟨by rw [hfold, h.rest], fun k => ?_⟩
  rcases get?_foldl_withResult s results k with ⟨r, hm, rfl, hg⟩ | ⟨_, hg⟩
  · obtain ⟨item, hi, hrd⟩ := delivered_of_mem hr hm
    refine .inr ⟨r, hg, ?_⟩
    rw [hrd.2.1]
    exact h.attains hk (hd item hi) hrd
  · rw [hg]
    exact h.results k

theorem Reaches.saturated (h : s₀.Reaches host answer s) (hk : s₀.Keyed)
    (hd : s.dispatchable host = []) :
    Saturated (fun k => s₀.hasSucceeded k = true) (s₀.MayFollow host)
      fun k => s.hasSucceeded k = true := by
  refine ⟨fun k hs => h.kept hs, ?_⟩
  rintro k _ ⟨item, hg, hu, ha, rfl⟩ hs
  rcases h.results k with hgk | ⟨r, hgk, hr⟩
  · have hu : s.isUnfinished k = true := by rwa [RunState.isUnfinished, hgk]
    have hp : item ∈ s.pendingItems := mem_pendingItems.2 ⟨k, h.workItems ▸ hg, hu⟩
    have hid := hk k item hg
    have ha : GoalRouter.requireDispatchable host s item.id = .ok () := by
      rw [h.requireDispatchable, hid, ha]
    have hm := mem_dispatchable.2 ⟨hp, hs, ha⟩
    rw [hd] at hm
    exact absurd hm List.not_mem_nil
  · exact hasSucceeded_iff.2 ⟨r, hgk, hr.succeeded⟩

/-- What is attained where nothing is left to dispatch is attained in any such state. -/
theorem Reaches.attained (h : s₀.Reaches host answer s) (hk : s₀.Keyed)
    (hd : s.dispatchable host = []) (hr : s₀.Attains host answer k r) :
    s.results.get? k = some r := by
  rcases h.results k with hg | ⟨r', hg, hr'⟩
  · have hs := (h.saturated hk hd).of_derives hr.attainable
    rw [RunState.hasSucceeded, hg] at hs
    have hu := hr.unfinished
    rw [not_unfinished_of_succeeded hs] at hu
    cases hu
  · obtain ⟨item, hi, he⟩ := hr.item
    obtain ⟨item', hi', he'⟩ := hr'.item
    cases hi.symm.trans hi'
    rw [hg, he, he']

theorem Reaches.results_eq {s' : RunState} (h : s₀.Reaches host answer s)
    (h' : s₀.Reaches host answer s') (hk : s₀.Keyed) (hd : s.dispatchable host = [])
    (hd' : s'.dispatchable host = []) : s.results.sorted = s'.results.sorted := by
  apply SortedMap.ext
  intro k
  rw [Dict.get?_sorted, Dict.get?_sorted]
  rcases h.results k with hg | ⟨r, hg, hr⟩
  · rcases h'.results k with hg' | ⟨r', hg', hr'⟩
    · rw [hg, hg']
    · rw [hg', h.attained hk hd hr']
  · rw [hg, h'.attained hk hd' hr]

/-- The status that a run ends with is told by its results, in whichever order they came. -/
theorem finalStatus_sorted {s' : RunState} (hr : s.results.sorted = s'.results.sorted)
    (hs : s = { s' with results := s.results, status := s.status }) :
    s.finalStatus host = s'.finalStatus host := by
  have hg (k : Text) : s.results.get? k = s'.results.get? k := by
    rw [← Dict.get?_sorted, hr, Dict.get?_sorted]
  have hsize : s.results.size = s'.results.size := by
    apply Dict.size_eq_of_keys
    intro k
    rw [Dict.mem_keys, Dict.mem_keys, hg]
  have hstatus (status : WorkStatus) : status ∈ s.results.values.map WorkResult.status ↔
      status ∈ s'.results.values.map WorkResult.status := by
    simp only [List.mem_map, Dict.mem_values, hg]
  have hwaits (items : List WorkItem) :
      s.awaitsApproval host items = s'.awaitsApproval host items := by
    induction items with
    | nil => rfl
    | cons item items ih =>
      rw [awaitsApproval, awaitsApproval, hg, ih]
      rw [hs]
  have hitems : s.workItems = s'.workItems := by rw [hs]
  simp only [finalStatus, hstatus, hsize, hwaits, hitems]

end RunState

section Loop

variable {s₀ s : RunState}

/-- The directory may hold whatever state a run from `s₀` comes to. -/
def RunState.Storable (host : Host) (answer : Turn → WorkResult) (I : RunDir → Prop)
    (s₀ : RunState) : Prop :=
  ∀ s, s₀.Reaches host answer s → I (.snapshot (snapshotOf s))

theorem saveRun_yields (hI : I (.snapshot (snapshotOf s))) :
    Yields host answer I (fun _ => True) (saveRun host s) := by
  apply (Yields.keeps (Prog.Only.ofExcept _)).bind
  intro _ _ w hw
  apply Prog.Safe.invoke
  intro r w' hn
  have hdir : I w'.dir := by
    cases hn.next with
    | raises => exact hw
    | saved => exact hI
  refine ⟨hdir, ?_⟩
  cases r with
  | ok v => exact ⟨trivial, hdir⟩
  | error e => exact hdir

theorem persistResult_yields (s : RunState) (r : WorkResult)
    (hI : I (.snapshot (snapshotOf (s.withResult r)))) :
    Yields host answer I (fun s' => s' = s.withResult r) (persistResult host s r) := by
  apply Yields.of_within fun _ => persistResult_within rfl s r
  apply (saveRun_yields hI).bind
  intro _ _
  apply (Yields.keeps (Prog.Only.invoke rfl)).bind
  intro time _
  apply Yields.keeps
  apply Prog.Only.bind
  · apply (Prog.Only.ofExcept _).bind
    exact fun _ => Prog.Only.invoke rfl
  · exact fun _ => trivial

theorem foldlM_yields {results : List WorkResult}
    (hI : ∀ n, I (.snapshot (snapshotOf ((results.take n).foldl RunState.withResult s)))) :
    Yields host answer I (fun s' => s' = results.foldl RunState.withResult s)
      (results.foldlM (persistResult host) s) := by
  induction results generalizing s with
  | nil => exact Yields.pure rfl
  | cons r results ih =>
    apply (persistResult_yields s r (hI 1)).bind
    rintro _ rfl
    exact ih fun n => hI (n + 1)

theorem persistResults_yields {batch : List WorkItem} {results : List WorkResult}
    (hI : s₀.Storable host answer I) (h : s₀.Reaches host answer s) (hk : s₀.Keyed)
    (hd : ∀ item ∈ batch, item ∈ s.dispatchable host)
    (hr : List.Forall₂ (Delivers host answer s) batch results) :
    Yields host answer I (fun s' => s₀.Reaches host answer s')
      (results.foldlM (persistResult host) s) := by
  have htaken (n : Nat) : s₀.Reaches host answer ((results.take n).foldl RunState.withResult s) :=
    h.withResults hk (fun item hi => hd item (List.mem_of_mem_take hi)) (List.forall₂_take n hr)
  apply (foldlM_yields fun n => hI _ (htaken n)).mono
  rintro _ rfl
  exact h.withResults hk hd hr

theorem runReaders_yields {batch : List WorkItem} (hI : s₀.Storable host answer I)
    (h : s₀.Reaches host answer s) (hk : s₀.Keyed)
    (hd : ∀ item ∈ batch, item ∈ s.dispatchable host) (hn : (batch.map WorkItem.id).Nodup) :
    Yields host answer I (fun s' => s₀.Reaches host answer s') (runReaders host s batch) := by
  have hturns (item : WorkItem) (hi : item ∈ batch) :
      ∃ t, dispatchTurn host { s with status := .running } item = .ok t :=
    dispatchTurn_of_dispatchable (hd item hi)
  apply (runReadBatch_yields hn hturns).bind
  exact fun results hr => persistResults_yields hI (h.setStatus .running) hk hd hr

theorem writerBody_yields (hI : s₀.Storable host answer I) (h : s₀.Reaches host answer s)
    (hk : s₀.Keyed) (hd : item ∈ s.dispatchable host) :
    Yields host answer I (fun s' => s₀.Reaches host answer s') (writerBody host s item) := by
  obtain ⟨t, ht⟩ := dispatchTurn_of_dispatchable hd
  apply (Yields.keeps (Prog.Only.ofExcept _)).bind
  intro _ _
  apply (Yields.keeps (Prog.Only.invoke rfl)).bind
  intro _ _
  have hone : Yields host answer I (Delivers host answer { s with status := .running } item)
      (runOne host { s with status := .running } item) := runOne_yields ht
  apply hone.bind
  intro r hr
  have hbatch (other : WorkItem) (ho : other ∈ [item]) :
      other ∈ { s with status := .running }.dispatchable host := List.mem_singleton.1 ho ▸ hd
  have hstored := persistResults_yields hI (h.setStatus .running) hk hbatch (.cons hr .nil)
  simpa only [List.foldlM_cons, List.foldlM_nil, bind_pure] using hstored

theorem runWriter_yields (hI : s₀.Storable host answer I) (h : s₀.Reaches host answer s)
    (hk : s₀.Keyed) (hd : item ∈ s.dispatchable host) :
    Yields host answer I (fun s' => s₀.Reaches host answer s') (runWriter host s item) := by
  have hleased {s : RunState} (h : s₀.Reaches host answer s) (hd : item ∈ s.dispatchable host) :
      Yields host answer I (fun s' => s₀.Reaches host answer s') (do
        invoke (.acquireProject s.objective.projectPath)
        (writerBody host s item).ensure (invoke (.releaseProject s.objective.projectPath))) := by
    apply (Yields.keeps (Prog.Only.invoke rfl)).bind
    intro _ _
    exact (writerBody_yields hI h hk hd).ensure (Prog.Only.invoke rfl)
  rw [runWriter]
  split
  · simp only [bind_assoc, pure_bind]
    apply (saveRun_yields (hI _ (h.setStatus .planned))).bind
    intro _ _
    exact hleased (h.setStatus .planned) hd
  · exact hleased h hd

/-- What one pass of the loop keeps, the loop keeps. -/
theorem runLoop_yields (hI : s₀.Storable host answer I) (maxRead n : Nat)
    (h : s₀.Reaches host answer s) (hk : s₀.Keyed) (hn : s₀.newlyBlocked = []) :
    Yields host answer I (fun s' => s₀.Reaches host answer s') (runLoop host maxRead n s) := by
  induction n generalizing s with
  | zero => exact Yields.pure h
  | succ n ih =>
    have hkeyed : s.Keyed := fun k item hg => hk k item (h.workItems ▸ hg)
    rw [runLoop, h.newlyBlocked hn]
    apply (Yields.keeps (Prog.Only.invoke rfl)).bind
    intro _ _
    apply (Yields.pure rfl : Yields host answer I (fun s' => s = s') (pure s)).bind
    intro s' hs
    subst hs
    simp only
    split
    · exact Yields.pure h
    apply (Yields.keeps (forM_validated_records s _).consults.keepsDir).bind
    intro _ _
    split
    · rename_i item hf
      apply (runWriter_yields hI h hk (List.mem_of_find?_eq_some hf)).bind
      exact fun s h => ih h
    · have hb := List.take_sublist maxRead (s.dispatchable host)
      have hnodup : ((s.dispatchable host).map WorkItem.id).Nodup :=
        nodup_dispatchable fun k item hg _ => (hkeyed k item hg).symm
      apply (runReaders_yields hI h hk (fun _ hi => hb.mem hi) (hnodup.sublist (hb.map _))).bind
      exact fun s h => ih h

theorem conclude_yields (hI : s₀.Storable host answer I) (h : s₀.Reaches host answer s) :
    Yields host answer I (fun s' => s₀.Reaches host answer s') (conclude host s) := by
  apply (Yields.keeps (Prog.Only.invoke rfl)).bind
  intro _ _
  apply (Yields.keeps (Prog.Only.ofExcept _)).bind
  intro status _
  simp only
  split
  · exact Yields.pure h
  · apply (saveRun_yields (hI _ (h.setStatus status))).bind
    exact fun _ _ => Yields.pure (h.setStatus status)

/-- `run_ready` ends in a state with nothing to dispatch that the rules lead to. -/
theorem runReady_yields (hI : s.Storable host answer I) (maxRead : Nat) (hm : 1 ≤ maxRead)
    (hk : s.Keyed) (hn : s.newlyBlocked = []) :
    Yields host answer I (fun s' => s.Reaches host answer s' ∧ s'.dispatchable host = [] ∧
      s'.finalStatus host = .ok s'.status) (runReady host maxRead s) := by
  have hreaches : Yields host answer I (fun s' => s.Reaches host answer s')
      (runReady host maxRead s) := by
    apply (runLoop_yields hI maxRead _ (RunState.Reaches.refl s) hk hn).bind
    exact fun s₁ h₁ => conclude_yields hI h₁
  intro w hw
  have hpasses := (@runReady_passes host maxRead s w).restrict
    fun _ _ _ _ (hx : Answering host answer _ _ _ _) => hx.next
  apply ((hreaches w hw).and hpasses).weaken (fun _ h => h.1) |>.mono
  · rintro s' w' ⟨⟨h, hw'⟩, states, s₁, hp, _, status, hf, rfl⟩
    refine ⟨⟨h, hp.dispatchable_nil hm hk (openKeys_length_le s), ?_⟩, hw'⟩
    rw [finalStatus_status, hf]
  · exact fun _ _ h => h.1

end Loop

/-- Where every turn succeeds with a result that it alone determines, `run_ready` comes to the same
state however many readers it runs at a time and in whichever order their turns end. -/
theorem runReady_schedule_independent {maxRead maxRead' : Nat} {w₀ w₀' w w' : World}
    {s s₁ s₁' : RunState} (hm : 1 ≤ maxRead) (hm' : 1 ≤ maxRead') (hk : s.Keyed)
    (hn : s.newlyBlocked = [])
    (h : Prog.Steps (Answering host answer) (runReady host maxRead s) w₀ (.pure s₁) w)
    (h' : Prog.Steps (Answering host answer) (runReady host maxRead' s) w₀' (.pure s₁') w') :
    s₁.results.sorted = s₁'.results.sorted ∧ s₁ = { s₁' with results := s₁.results } := by
  have hall {n : Nat} {s₂ : RunState} {w w' : World} (hn' : 1 ≤ n)
      (h : Prog.Steps (Answering host answer) (runReady host n s) w (.pure s₂) w') :
      s.Reaches host answer s₂ ∧ s₂.dispatchable host = [] ∧
        s₂.finalStatus host = .ok s₂.status :=
    ((runReady_yields (I := fun _ => True) (fun _ _ => trivial) n hn' hk hn w trivial).returns
      trivial h).2.1
  obtain ⟨hr, hd, hf⟩ := hall hm h
  obtain ⟨hr', hd', hf'⟩ := hall hm' h'
  have hresults := hr.results_eq hr' hk hd hd'
  have hrest : s₁ = { s₁' with results := s₁.results, status := s₁.status } := by
    rw [hr.rest, hr'.rest]
  have hstatus : s₁.status = s₁'.status := by
    rw [RunState.finalStatus_sorted hresults hrest, hf'] at hf
    exact (Except.ok.inj hf).symm
  refine ⟨hresults, ?_⟩
  rw [hstatus] at hrest
  exact hrest

section Sample

/-- A script in which every turn succeeds. -/
def diligentScript : Script :=
  { sampleScript singlePlan [] with turn := fun _ => .ok (sampleTurn (text "done")) }

def diligentAnswer (t : Turn) : WorkResult :=
  match diligentScript.outcome t with
  | .ok r => r
  | .error e => failureResult singleItem .failed e.describe

theorem diligentScript_answering {w w' : World} {c : Call} {r : Except PyError (Val c)}
    (h : diligentScript.answer host w c = some (r, w')) :
    Answering host diligentAnswer w c r w' := by
  have hn := diligentScript.answer_next host h
  cases c with
  | awaitTurn b running =>
    cases running with
    | nil => cases h
    | cons t running =>
      cases h
      exact .turn hn
  | _ => exact .other hn fun _ _ hc => by cases hc

/-- A new run with the items `a` and `b`, and one that depends on `a` and comes before `b`. -/
def fanState : RunState :=
  { chainState with
    workItems := Dict.ofList [
      (text "a", singleItem),
      (text "aa", { singleItem with id := text "aa", dependencies := [text "a"] }),
      (text "b", { singleItem with id := text "b" })]
    routes := Dict.ofList (["a", "aa", "b"].map fun id =>
      (text id, { singleDecision with approval := .automatic })) }

def fanRun (maxRead : Nat) : Program RunState × World :=
  (runReady sampleHost maxRead fanState).exec (diligentScript.answer sampleHost)
    ⟨text "run", .snapshot (snapshotOf fanState), []⟩

theorem fanRun_steps (h : (fanRun maxRead).1.value? = some s) :
    Prog.Steps (Answering sampleHost diligentAnswer) (runReady sampleHost maxRead fanState)
      ⟨text "run", .snapshot (snapshotOf fanState), []⟩ (.pure s) (fanRun maxRead).2 := by
  have ha (w : World) (c : Call) (r : Except PyError (Val c)) (w' : World)
      (hr : diligentScript.answer sampleHost w c = some (r, w')) :
      Answering sampleHost diligentAnswer w c r w' := diligentScript_answering hr
  rw [← Prog.value?_eq_some.1 h]
  exact Prog.exec_steps ha _ _

/-- One reader at a time or two: the results come in another order, and are the same. -/
theorem fan_schedule_independent : ∃ s₁ s₂,
    (fanRun 1).1.value? = some s₁ ∧ (fanRun 2).1.value? = some s₂ ∧
      s₁.results.keys ≠ s₂.results.keys ∧ s₁.results.sorted = s₂.results.sorted := by
  have hkeyed : fanState.Keyed := by
    intro k item hk
    have hall : ∀ e ∈ fanState.workItems.entries, e.2.id = e.1 := by decide
    exact hall (k, item) (Dict.mem_entries.2 hk)
  have hkeys : (fanRun 1).1.value?.map (fun s => s.results.keys) =
      some [text "a", text "aa", text "b"] ∧
      (fanRun 2).1.value?.map (fun s => s.results.keys) = some [text "a", text "b", text "aa"] := by
    decide +kernel
  obtain ⟨s₁, h₁, hk₁⟩ := Option.map_eq_some_iff.1 hkeys.1
  obtain ⟨s₂, h₂, hk₂⟩ := Option.map_eq_some_iff.1 hkeys.2
  refine ⟨s₁, s₂, h₁, h₂, ?_, ?_⟩
  · rw [hk₁, hk₂]
    decide
  · exact (runReady_schedule_independent (by decide) (by decide) hkeyed (by decide)
      (fanRun_steps h₁) (fanRun_steps h₂)).1

end Sample

end GoalRouter
