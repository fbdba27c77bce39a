import GoalRouter.SchedulerQuiescence
import Mathlib.Data.List.GetD

namespace GoalRouter
open Library
set_option autoImplicit true

open RunState

section Schedule

variable (host : Host) (maxRead : Nat) (s : RunState) (succeeds : Text → Bool)

/-- The items of a state that are ready once the given ones have ended, each as it does. -/
def RunState.readyAfter (done : List Text) : List WorkItem :=
  s.pendingItems.filter fun item =>
    !done.contains item.id &&
      item.dependencies.all (fun d => s.hasSucceeded d || (done.contains d && succeeds d)) &&
      s.isApproved host item.id

/-- A writer runs alone, and before the readers. -/
def nextBatch (ready : List WorkItem) : List WorkItem :=
  match ready.find? WorkItem.isWriter with
  | some item => [item]
  | none => ready.take maxRead

/-- The batches that follow from a state and the outcomes of the turns. -/
def batchesAfter : Nat → List Text → List (List WorkItem)
  | 0, _ => []
  | n + 1, done =>
    match nextBatch maxRead (s.readyAfter host succeeds done) with
    | [] => []
    | item :: items =>
      (item :: items) :: batchesAfter n (done ++ (item :: items).map WorkItem.id)

def batches : List (List WorkItem) := batchesAfter host maxRead s succeeds s.workItems.size []

/-- By how many batches an item has failed or was blocked: one whose turn fails, by the one after
its own; one with such a dependency, by one more than that. -/
inductive FailsBy (bs : List (List WorkItem)) : Text → Nat → Prop
  | failed (h : s.hasFailed k = true) : FailsBy bs k 0
  | turn (hi : item ∈ bs.getD t []) (hs : succeeds item.id = false) : FailsBy bs item.id (t + 1)
  | blocked (hi : item ∈ s.pendingItems) (hd : d ∈ item.dependencies) (h : FailsBy bs d t) :
      FailsBy bs item.id (t + 1)

/-- Every failure has spread by the pass that follows the last batch. -/
def FailuresSpread : Prop :=
  ∀ k t, FailsBy s succeeds (batches host maxRead s succeeds) k t →
    ∃ t' ≤ (batches host maxRead s succeeds).length + 1,
      FailsBy s succeeds (batches host maxRead s succeeds) k t'

end Schedule

/-- A turn that ended did so as the outcomes say of its item. -/
def Event.tells (succeeds : Text → Bool) : Event → Bool
  | .answered (.awaitTurn _ _) (.ok (t, outcome)) =>
    match t.subject with
    | .item item => outcome.isOk == succeeds item.id
    | _ => true
  | _ => true

def TurnsEnd (succeeds : Text → Bool) (events : List Event) : Prop :=
  ∀ event ∈ events, event.tells succeeds = true

section Execution

variable {host : Host} {succeeds : Text → Bool}

/-- How the world answers where turns end so. -/
def Telling (host : Host) (succeeds : Text → Bool) : Prog.Answers Val PyError World :=
  fun w c r w' => Next host w c r w' ∧ TurnsEnd succeeds [.answered c r]

theorem steps_telling {p q : Program α} (h : Prog.Steps (Next host) p w q w')
    (hl : w'.log = events ++ w.log) (ht : TurnsEnd succeeds events) :
    Prog.Steps (Telling host succeeds) p w q w' := by
  induction h generalizing events with
  | refl => exact .refl
  | call hn hrest ih =>
    rename_i w c r w₁ k q w'
    obtain ⟨e, he, _⟩ := hn.since
    obtain ⟨later, hlater⟩ := steps_log hrest
    rw [he, hl] at hlater
    have hevents : events = later ++ .answered c r :: e := by
      apply List.append_cancel_right
      rw [hlater, List.append_assoc, List.cons_append]
    subst hevents
    have hlater :
        later ++ (.answered c r :: e) ++ w.log = later ++ (.answered c r :: (e ++ w.log)) := by
      rw [List.append_assoc, List.cons_append]
    refine .call ⟨hn, fun event hm => ?_⟩
      (ih ?_ fun event hm => ht event (List.mem_append_left _ hm))
    · rw [List.mem_singleton.1 hm]
      exact ht _ (List.mem_append_right _ List.mem_cons_self)
    · rw [hl, he, hlater]

/-- Whatever the world, the program returns nothing but what satisfies `Q`. -/
abbrev Gives (host : Host) (succeeds : Text → Bool) (Q : α → Prop) (p : Program α) : Prop :=
  ∀ w, p.Safe (Telling host succeeds) (fun _ => True) (fun a _ => Q a) (fun _ _ => True) w

namespace Gives

theorem pure {Q : α → Prop} {a : α} (h : Q a) : Gives host succeeds Q (Pure.pure a) := fun _ => h

theorem any (p : Program α) : Gives host succeeds (fun _ => True) p := fun w => Prog.Safe.any p w

theorem mono {p : Program α} {Q Q' : α → Prop} (h : Gives host succeeds Q p)
    (hQ : ∀ a, Q a → Q' a) :
    Gives host succeeds Q' p :=
  fun w => (h w).mono (fun a _ ha => hQ a ha) fun _ _ h => h

theorem bind {p : Program α} {f : α → Program β} {Q : α → Prop} {Q' : β → Prop}
    (h : Gives host succeeds Q p) (hf : ∀ a, Q a → Gives host succeeds Q' (f a)) :
    Gives host succeeds Q' (p >>= f) :=
  fun w => (h w).bind fun a w' ha => hf a ha w'

/-- What was shown of its returns in every world holds here. -/
theorem of_within {p : Program α} {Q : α → Prop} (h : ∀ w, Within host w.passed Q p w) :
    Gives host succeeds Q p :=
  fun w => ((h w).restrict fun _ _ _ _ hn => hn.1).mono (fun _ _ h => h.2) fun _ _ h => h

end Gives

/-- The result of an item, as the outcomes say. -/
def Tells (succeeds : Text → Bool) (k : Text) (r : WorkResult) : Prop :=
  Ended k r ∧ (r.status = .succeeded ↔ succeeds k = true)

theorem readerResult_tells {t : Turn} {outcome : Outcome} {item : WorkItem} (he : t.Ends outcome)
    (ho : outcome.isOk = succeeds item.id) :
    Tells succeeds item.id (readerResult item outcome) := by
  refine ⟨readerResult_ended he item, ?_⟩
  cases outcome with
  | ok r =>
    obtain ⟨threadId, turn, hr⟩ := he
    have hs : r.status = .succeeded := normalizeResult_succeeded hr
    exact iff_of_true hs ho.symm
  | error e =>
    refine iff_of_false (fun h => by cases h) fun h => ?_
    rw [← ho] at h
    cases h

theorem awaitTurn_gives (b : Bool) (running : List Turn) :
    Gives host succeeds (fun v => v.1 ∈ running ∧ v.1.Ends v.2 ∧
      ∀ item, v.1.subject = .item item → v.2.isOk = succeeds item.id)
      (invoke (.awaitTurn b running)) := by
  intro w
  apply Prog.Safe.invoke
  rintro r w' ⟨hn, ht⟩
  cases r with
  | error e => exact ⟨trivial, trivial⟩
  | ok v =>
    obtain ⟨t, outcome⟩ := v
    cases hn with
    | awaitTurn hm he =>
      refine ⟨trivial, hm, he, fun item hs => ?_⟩
      have hb := ht _ List.mem_cons_self
      rw [Event.tells, hs] at hb
      exact beq_iff_eq.1 hb

/-- Every result collected so far is as the outcomes say. -/
def AllTell (succeeds : Text → Bool) (results : Collected) : Prop :=
  ∀ k r, results.get? k = some r → Tells succeeds k r

/-- Every turn in flight is of its item. -/
def OwnTurns (running : Running) : Prop := ∀ p ∈ running, p.2.subject = .item p.1

theorem OwnTurns.remove {running : Running} (h : OwnTurns running) (t : Turn) :
    OwnTurns (running.remove t) :=
  fun p hp => h p (List.mem_of_mem_eraseP hp)

theorem AllTell.collect {t : Turn} {outcome : Outcome} {running : Running} {results : Collected}
    (h : AllTell succeeds results) (hown : OwnTurns running) (he : t.Ends outcome)
    (ho : ∀ item, t.subject = .item item → outcome.isOk = succeeds item.id) :
    AllTell succeeds (collect running results t outcome) := by
  rw [GoalRouter.collect]
  split
  · exact h
  · rename_i item t' hf
    have hm := List.mem_of_find?_eq_some hf
    have ht : t' = t := by simpa using List.find?_some hf
    have hr := readerResult_tells he (ho item (ht ▸ hown _ hm))
    intro k r hg
    rw [Dict.get?_set] at hg
    split at hg
    · rename_i hk
      cases hg
      exact hk ▸ hr
    · exact h k r hg

theorem drain_gives (n : Nat) {running : Running} {results : Collected} (hown : OwnTurns running)
    (hr : AllTell succeeds results) (failed : Bool) :
    Gives host succeeds (fun v => AllTell succeeds v.1) (drain n running results failed) := by
  induction n generalizing running results failed with
  | zero => exact Gives.pure hr
  | succ n ih =>
    apply (awaitTurn_gives _ _).bind
    rintro ⟨t, outcome⟩ ⟨_, he, ho⟩
    exact ih (hown.remove t) (hr.collect hown he ho) _

theorem gather_gives (n : Nat) {running : Running} {results : Collected} (hown : OwnTurns running)
    (hr : AllTell succeeds results) :
    Gives host succeeds (AllTell succeeds) (gather n running results) := by
  induction n generalizing running results with
  | zero => exact Gives.pure hr
  | succ n ih =>
    intro w
    rw [gather]
    apply Prog.Safe.attempt_bind (awaitTurn_gives true running.turns w)
    rintro r w' hv
    cases r with
    | error e =>
      apply (drain_gives (n + 1) hown hr false).bind _ w'
      rintro ⟨results', failed⟩ hr
      cases failed with
      | true => exact Gives.pure hr
      | false => exact fun _ => trivial
    | ok v =>
      obtain ⟨t, outcome⟩ := v
      obtain ⟨_, he, ho⟩ := hv
      have hc := hr.collect hown he ho
      simp only
      split
      · exact (drain_gives n (hown.remove t) hc true).bind (fun _ hr => Gives.pure hr) w'
      · exact ih (hown.remove t) hc w'

theorem runOne_gives {s : RunState} {item : WorkItem} (h : dispatchTurn host s item = .ok t) :
    Gives host succeeds (Tells succeeds item.id) (runOne host s item) := by
  rw [runOne, h]
  apply (Gives.any _).bind
  intro _ _
  apply (Gives.any _).bind
  intro _ _
  apply (awaitTurn_gives false [t]).bind
  rintro ⟨t', outcome⟩ ⟨hm, he, ho⟩
  cases List.mem_singleton.1 hm
  have hr := readerResult_tells he (ho item (dispatchTurn_ok h).2)
  cases outcome with
  | ok r => exact Gives.pure hr
  | error e =>
    simp only
    split
    · exact fun _ => trivial
    · exact Gives.pure ⟨⟨rfl, .inr rfl⟩, hr.2⟩

theorem startBatch_gives {s : RunState} {items : List WorkItem} {running : Running}
    {results : Collected} (ht : ∀ item ∈ items, ∃ t, dispatchTurn host s item = .ok t)
    (hown : OwnTurns running) (hr : AllTell succeeds results) (failed : Bool) :
    Gives host succeeds (fun v => OwnTurns v.1 ∧ AllTell succeeds v.2.1)
      (startBatch host s items running results failed) := by
  induction items generalizing running with
  | nil => exact Gives.pure ⟨hown, hr⟩
  | cons item items ih =>
    obtain ⟨⟨t, hd⟩, ht⟩ := List.forall_mem_cons.1 ht
    rw [startBatch, hd]
    apply (Gives.any _).bind
    intro _ _
    apply (Gives.any _).bind
    intro _ _
    apply ih ht
    intro p hp
    rcases List.mem_append.1 hp with hp | hp
    · exact hown p hp
    · rw [List.mem_singleton.1 hp]
      exact (dispatchTurn_ok hd).2

/-- The results of a batch, as the outcomes say. -/
abbrev BatchTells (succeeds : Text → Bool) (items : List WorkItem) (results : List WorkResult) :
    Prop :=
  List.Forall₂ (fun item r => Tells succeeds item.id r) items results

theorem mapM_results_gives {results : Collected} (hr : AllTell succeeds results)
    (items : List WorkItem) :
    Gives host succeeds (BatchTells succeeds items)
      (items.mapM fun item => match results.get? item.id with
        | some r => pure r
        | none => raise ⟨.keyError, host.repr item.id⟩) := by
  induction items with
  | nil => exact Gives.pure .nil
  | cons item items ih =>
    rw [List.mapM_cons]
    cases hg : results.get? item.id with
    | none => exact fun _ => trivial
    | some r =>
      simp only [pure_bind]
      exact ih.bind fun rs hrs => Gives.pure (.cons (hr _ _ hg) hrs)

theorem runReadBatch_gives {s : RunState} {items : List WorkItem}
    (ht : ∀ item ∈ items, ∃ t, dispatchTurn host s item = .ok t) :
    Gives host succeeds (BatchTells succeeds items) (runReadBatch host s items) := by
  have hempty : AllTell succeeds ∅ := fun _ _ hg => by cases hg
  have hnone : OwnTurns [] := fun _ hp => absurd hp List.not_mem_nil
  apply (startBatch_gives ht hnone hempty false).bind
  rintro ⟨running, results, failed⟩ ⟨hown, hr⟩
  cases failed with
  | true =>
    apply Gives.bind (Q := AllTell succeeds)
    · exact (drain_gives _ hown hr true).bind fun _ hr => Gives.pure hr
    · exact fun results hr => mapM_results_gives hr items
  | false => exact (gather_gives _ hown hr).bind fun results hr => mapM_results_gives hr items

theorem runReaders_gives {s : RunState} {batch : List WorkItem}
    (ht : ∀ item ∈ batch, ∃ t, dispatchTurn host { s with status := .running } item = .ok t) :
    Gives host succeeds (fun s' => ∃ results, BatchTells succeeds batch results ∧
      s' = results.foldl RunState.withResult { s with status := .running })
      (runReaders host s batch) := by
  apply (runReadBatch_gives ht).bind
  intro results hr
  apply (Gives.of_within fun w => persistResults_within rfl results _).mono
  rintro s' rfl
  exact ⟨results, hr, rfl⟩

theorem writerBody_gives {s : RunState} {item : WorkItem}
    (ht : ∃ t, dispatchTurn host { s with status := .running } item = .ok t) :
    Gives host succeeds (fun s' => ∃ r, Tells succeeds item.id r ∧
      s' = { s with status := .running }.withResult r) (writerBody host s item) := by
  obtain ⟨t, ht⟩ := ht
  apply (Gives.any _).bind
  intro _ _
  apply (Gives.any _).bind
  intro _ _
  apply (runOne_gives ht).bind
  intro r hr
  apply (Gives.of_within fun w => persistResult_within rfl _ r).mono
  rintro s' rfl
  exact ⟨r, hr, rfl⟩

theorem leasedWriter_gives {s : RunState} {item : WorkItem}
    (ht : ∃ t, dispatchTurn host { s with status := .running } item = .ok t) :
    Gives host succeeds (fun s' => ∃ r, Tells succeeds item.id r ∧
      s' = { s with status := .running }.withResult r) (do
        invoke (.acquireProject s.objective.projectPath)
        (writerBody host s item).ensure (invoke (.releaseProject s.objective.projectPath))) := by
  apply (Gives.any _).bind
  intro _ _ w
  apply (writerBody_gives ht w).ensure
  · intro s' w' hs
    exact (Prog.Safe.any _ w').mono (fun _ _ _ => hs) fun _ _ h => h
  · exact fun e w' _ => Prog.Safe.any _ w'

theorem runWriter_gives {s : RunState} {item : WorkItem}
    (ht : ∃ t, dispatchTurn host { s with status := .running } item = .ok t) :
    Gives host succeeds (fun s' => ∃ r, Tells succeeds item.id r ∧
      s' = { s with status := .running }.withResult r) (runWriter host s item) := by
  rw [runWriter]
  split
  · simp only [bind_assoc, pure_bind]
    apply (Gives.any _).bind
    intro _ _
    exact leasedWriter_gives (s := { s with status := .planned }) ht
  · exact leasedWriter_gives ht

end Execution

section Results

variable {s : RunState} {results : List WorkResult} {succeeds : Text → Bool} {k : Text}

/-- A result is a success, a failure to what depends on it, or may be resumed. -/
theorem RunState.isUnfinished_iff_neither :
    s.isUnfinished k = true ↔ s.hasSucceeded k = false ∧ s.hasFailed k = false := by
  rw [isUnfinished, hasSucceeded, hasFailed]
  cases s.results.get? k with
  | none => exact iff_of_true rfl ⟨rfl, rfl⟩
  | some r =>
    cases hs : r.status <;> simp [hs, WorkStatus.isResumable, WorkStatus.isDependencyFailure]

theorem RunState.not_failed_of_succeeded (h : s.hasSucceeded k = true) : s.hasFailed k = false := by
  obtain ⟨r, hr, hs⟩ := hasSucceeded_iff.1 h
  simp [hasFailed, hr, hs, WorkStatus.isDependencyFailure]

theorem RunState.hasSucceeded_blockAll (h : s.Keyed) :
    s.blockAll.hasSucceeded k = s.hasSucceeded k := by
  rw [blockAll]
  rcases get?_foldl_withResult s (s.newlyBlocked.map blockedResult) k with
    ⟨r, hr, rfl, hg⟩ | ⟨_, hg⟩
  · have hu := h.blocked_unfinished hr
    rw [(isUnfinished_iff_neither.1 hu).1]
    obtain ⟨item, _, rfl⟩ := List.mem_map.1 hr
    rw [hasSucceeded, hg]
    rfl
  · rw [hasSucceeded, hasSucceeded, hg]

theorem BatchTells.foldl {batch : List WorkItem} (h : BatchTells succeeds batch results)
    (s : RunState) (k : Text) :
    k ∈ batch.map WorkItem.id ∧
        ((results.foldl withResult s).hasSucceeded k = true ↔ succeeds k = true) ∧
        ((results.foldl withResult s).hasFailed k = true ↔ succeeds k = false) ∨
      k ∉ batch.map WorkItem.id ∧
        (results.foldl withResult s).results.get? k = s.results.get? k := by
  have hresult {r : WorkResult} (hr : r ∈ results) :
      r.workItemId ∈ batch.map WorkItem.id ∧ Tells succeeds r.workItemId r := by
    clear s k
    induction h with
    | nil => cases hr
    | cons ht _ ih =>
      rcases List.mem_cons.1 hr with rfl | hr
      · rw [ht.1.1]
        exact ⟨List.mem_cons_self, ht⟩
      · exact ⟨List.mem_cons_of_mem _ (ih hr).1, (ih hr).2⟩
  have hitem {k : Text} (hk : k ∈ batch.map WorkItem.id) : ∃ r ∈ results, r.workItemId = k := by
    clear hresult s
    induction h with
    | nil => cases hk
    | cons ht _ ih =>
      rcases List.mem_cons.1 hk with rfl | hk
      · exact ⟨_, List.mem_cons_self, ht.1.1⟩
      · obtain ⟨r, hr, he⟩ := ih hk
        exact ⟨r, List.mem_cons_of_mem _ hr, he⟩
  rcases get?_foldl_withResult s results k with ⟨r, hr, rfl, hg⟩ | ⟨hn, hg⟩
  · obtain ⟨hm, ht⟩ := hresult hr
    refine .inl ⟨hm, ?_, ?_⟩
    · rw [hasSucceeded, hg]
      simpa using ht.2
    · rw [hasFailed, hg]
      rcases ht.1.2 with hs | hs
      · have hk := ht.2.1 hs
        simp [hs, hk, WorkStatus.isDependencyFailure]
      · have hk : ¬succeeds r.workItemId = true := fun hk => by
          rw [ht.2.2 hk] at hs
          cases hs
        simp [hs, hk, WorkStatus.isDependencyFailure]
  · refine .inr ⟨fun hk => ?_, hg⟩
    obtain ⟨r, hr, he⟩ := hitem hk
    exact hn r hr he

theorem BatchTells.hasSucceeded_iff {batch : List WorkItem} (h : BatchTells succeeds batch results)
    (s : RunState) (k : Text) :
    (results.foldl withResult s).hasSucceeded k = true ↔
      if k ∈ batch.map WorkItem.id then succeeds k = true else s.hasSucceeded k = true := by
  rcases h.foldl s k with ⟨hm, hs, _⟩ | ⟨hm, hg⟩
  · rw [if_pos hm, hs]
  · rw [if_neg hm, hasSucceeded, hasSucceeded, hg]

theorem BatchTells.hasFailed_iff {batch : List WorkItem} (h : BatchTells succeeds batch results)
    (s : RunState) (k : Text) :
    (results.foldl withResult s).hasFailed k = true ↔
      if k ∈ batch.map WorkItem.id then succeeds k = false else s.hasFailed k = true := by
  rcases h.foldl s k with ⟨hm, _, hf⟩ | ⟨hm, hg⟩
  · rw [if_pos hm, hf]
  · rw [if_neg hm, hasFailed, hasFailed, hg]

end Results

section Reached

variable {host : Host} {maxRead : Nat} {s s₁ : RunState} {succeeds : Text → Bool}
  {bs : List (List WorkItem)} {done : List Text} {n : Nat}

/-- What has come of a state when the items of so many batches have ended. -/
structure AfterBatches (s : RunState) (succeeds : Text → Bool) (bs : List (List WorkItem))
    (done : List Text) (n : Nat) (s₁ : RunState) : Prop where
  rest : s₁ = { s with results := s₁.results, status := s₁.status }
  succeeded : ∀ k, s₁.hasSucceeded k = true ↔
    s.hasSucceeded k = true ∨ k ∈ done ∧ succeeds k = true
  failed : ∀ k, s₁.hasFailed k = true ↔ ∃ t ≤ n, FailsBy s succeeds bs k t
  ready : ∀ k ∈ done, s.isUnfinished k = true ∧ ∀ item, s.workItems.get? k = some item →
    ∀ d ∈ item.dependencies, s₁.hasSucceeded d = true
  ended : ∀ k ∈ done, s₁.isUnfinished k = false
  batched : ∀ t < n, ∀ item ∈ bs.getD t [], item.id ∈ done

theorem AfterBatches.start (s : RunState) : AfterBatches s succeeds bs [] 0 s where
  rest := rfl
  succeeded k := by simp
  failed k := by
    constructor
    · exact fun h => ⟨0, le_rfl, .failed h⟩
    · rintro ⟨t, ht, h⟩
      cases h with
      | failed h => exact h
      | turn | blocked => omega
  ready _ hk := absurd hk List.not_mem_nil
  ended _ hk := absurd hk List.not_mem_nil
  batched t ht := absurd ht (Nat.not_lt_zero t)

namespace AfterBatches

theorem workItems (h : AfterBatches s succeeds bs done n s₁) : s₁.workItems = s.workItems := by
  rw [h.rest]

theorem keyed (h : AfterBatches s succeeds bs done n s₁) (hk : s.Keyed) : s₁.Keyed :=
  fun k item hg => hk k item (h.workItems ▸ hg)

theorem isApproved (h : AfterBatches s succeeds bs done n s₁) (k : Text) :
    s₁.isApproved host k = s.isApproved host k := by
  rw [h.rest]
  rfl

theorem unfinished (h : AfterBatches s succeeds bs done n s₁) (hk : s₁.isUnfinished k = true) :
    s.isUnfinished k = true := by
  obtain ⟨hs, hf⟩ := isUnfinished_iff_neither.1 hk
  refine isUnfinished_iff_neither.2 ⟨?_, ?_⟩
  · rw [Bool.eq_false_iff]
    intro hs'
    rw [(h.succeeded k).2 (.inl hs')] at hs
    cases hs
  · rw [Bool.eq_false_iff]
    intro hf'
    rw [(h.failed k).2 ⟨0, Nat.zero_le n, .failed hf'⟩] at hf
    cases hf

theorem not_succeeded (h : AfterBatches s succeeds bs done n s₁)
    (hg : s.workItems.get? k = some item) (hu : s.isUnfinished k = true)
    (hd : d ∈ item.dependencies) (hf : s₁.hasFailed d = true) :
    s₁.hasSucceeded k = false := by
  rw [Bool.eq_false_iff]
  intro hs
  rcases (h.succeeded k).1 hs with hs | ⟨hk, _⟩
  · rw [(isUnfinished_iff_neither.1 hu).1] at hs
    cases hs
  · have hsd := (h.ready k hk).2 item hg d hd
    rw [not_failed_of_succeeded hsd] at hf
    cases hf

theorem blockAll_failed (h : AfterBatches s succeeds bs done n s₁) (hk : s.Keyed) :
    s₁.blockAll.hasFailed k = true ↔ s₁.hasFailed k = true ∨ s.isUnfinished k = true ∧
      ∃ item, s.workItems.get? k = some item ∧ ∃ d ∈ item.dependencies, s₁.hasFailed d = true := by
  rw [hasFailed_blockAll (h.keyed hk)]
  constructor
  · rintro (hf | ⟨item, hi, rfl⟩)
    · exact .inl hf
    · obtain ⟨hp, d, hd, hf⟩ := mem_newlyBlocked.1 hi
      obtain ⟨k, hg, hu⟩ := mem_pendingItems.1 hp
      rw [h.workItems] at hg
      rw [hk k item hg]
      exact .inr ⟨h.unfinished hu, item, hg, d, hd, hf⟩
  · rintro (hf | ⟨hu, item, hg, d, hd, hf⟩)
    · exact .inl hf
    · cases hf' : s₁.hasFailed k with
      | true => exact .inl rfl
      | false =>
        have hs := h.not_succeeded hg hu hd hf
        have hg' : s₁.workItems.get? k = some item := h.workItems ▸ hg
        have hp := mem_pendingItems.2 ⟨k, hg', isUnfinished_iff_neither.2 ⟨hs, hf'⟩⟩
        exact .inr ⟨item, mem_newlyBlocked.2 ⟨hp, d, hd, hf⟩, hk k item hg⟩

/-- An item that waits for nothing fails only by its turn. -/
theorem turn_of_failsBy (h : AfterBatches s succeeds bs done n s₁) (hk : s.Keyed)
    (hu : s.isUnfinished k = true) (hg : s.workItems.get? k = some item)
    (hdeps : ∀ d ∈ item.dependencies, s₁.hasSucceeded d = true)
    (hf : FailsBy s succeeds bs k t) (ht : t ≤ n + 1) :
    succeeds k = false ∧ ∃ t' < t, k ∈ (bs.getD t' []).map WorkItem.id := by
  cases hf with
  | failed hf =>
    rw [(isUnfinished_iff_neither.1 hu).2] at hf
    cases hf
  | @turn t _ hi hs => exact ⟨hs, t, Nat.lt_succ_self t, List.mem_map_of_mem hi⟩
  | @blocked item' d t hi hmem hf =>
    obtain ⟨k', hg', _⟩ := mem_pendingItems.1 hi
    rw [← hk k' item' hg', hg] at hg'
    cases hg'
    have hfd := (h.failed d).2 ⟨t, by omega, hf⟩
    rw [not_failed_of_succeeded (hdeps d hmem)] at hfd
    cases hfd

/-- After blocking, just the items are dispatchable that are ready by the schedule. -/
theorem dispatchable_eq (h : AfterBatches s succeeds bs done n s₁) (hk : s.Keyed) :
    s₁.blockAll.dispatchable host = s.readyAfter host succeeds done := by
  have hw : s₁.blockAll.workItems = s.workItems := (blockAll_workItems s₁).trans h.workItems
  have ha (k : Text) : s₁.blockAll.isApproved host k = s.isApproved host k := by
    obtain ⟨d, hd⟩ := blockAll_eq s₁
    rw [← h.isApproved, hd]
    rfl
  rw [dispatchable, readyAfter, pendingItems, pendingItems, hw, List.filter_map, List.filter_map,
    List.filter_filter, List.filter_filter]
  congr 1
  apply List.filter_congr
  rintro ⟨k, item⟩ he
  have hg : s.workItems.get? k = some item := by
    rw [← Dict.get?_sorted]
    exact SortedMap.mem_entries.1 he
  rw [Bool.eq_iff_iff]
  simp only [Function.comp_apply, Bool.and_eq_true, Bool.or_eq_true, List.all_eq_true, ha,
    hk k item hg, Bool.not_eq_true', List.contains_eq_mem, decide_eq_true_eq,
    decide_eq_false_iff_not, hasSucceeded_blockAll (h.keyed hk), h.succeeded]
  constructor
  · rintro ⟨⟨hd, hap⟩, hu⟩
    have hu₁ : s₁.isUnfinished k = true := (isUnfinished_blockAll.1 hu).1
    refine ⟨⟨⟨fun hm => ?_, hd⟩, hap⟩, h.unfinished hu₁⟩
    rw [h.ended k hm] at hu₁
    cases hu₁
  · rintro ⟨⟨⟨hm, hd⟩, hap⟩, hu⟩
    refine ⟨⟨hd, hap⟩, isUnfinished_iff_neither.2 ⟨?_, ?_⟩⟩
    · rw [hasSucceeded_blockAll (h.keyed hk), Bool.eq_false_iff]
      intro hs
      rcases (h.succeeded k).1 hs with hs | ⟨hk, _⟩
      · rw [(isUnfinished_iff_neither.1 hu).1] at hs
        cases hs
      · exact hm hk
    · have hdeps (d : Text) (hmem : d ∈ item.dependencies) : s₁.hasSucceeded d = true :=
        (h.succeeded d).2 (hd d hmem)
      rw [Bool.eq_false_iff]
      intro hf
      rcases (h.blockAll_failed hk).1 hf with hf | ⟨_, item', hg', d, hmem, hf⟩
      · obtain ⟨t, ht, hf⟩ := (h.failed k).1 hf
        obtain ⟨_, t', hlt, hmem⟩ := h.turn_of_failsBy hk hu hg hdeps hf (by omega)
        obtain ⟨item', hi, hid⟩ := List.mem_map.1 hmem
        exact hm (hid ▸ h.batched t' (by omega) item' hi)
      · rw [hg] at hg'
        cases hg'
        rw [not_failed_of_succeeded (hdeps d hmem)] at hf
        cases hf

section Batch

variable {batch : List WorkItem}

theorem batch_ready (h : AfterBatches s succeeds bs done n s₁) (hk : s.Keyed)
    (hd : ∀ item ∈ batch, item ∈ s₁.blockAll.dispatchable host)
    (hm : k ∈ batch.map WorkItem.id) : s₁.isUnfinished k = true ∧
      ∃ item, s.workItems.get? k = some item ∧ ∀ d ∈ item.dependencies,
        s₁.hasSucceeded d = true := by
  have hkeyed := h.keyed hk
  have hkeyed' : s₁.blockAll.Keyed := fun k item hg => hkeyed k item (blockAll_workItems s₁ ▸ hg)
  obtain ⟨item, hi, rfl⟩ := List.mem_map.1 hm
  obtain ⟨hg, hu⟩ := dispatchable_unfinished hkeyed' (hd item hi)
  rw [blockAll_workItems, h.workItems] at hg
  refine ⟨(isUnfinished_blockAll.1 hu).1, item, hg, fun d hmem => ?_⟩
  rw [← hasSucceeded_blockAll hkeyed]
  exact (mem_dispatchable.1 (hd item hi)).2.1 d hmem

theorem batch_failed (h : AfterBatches s succeeds bs done n s₁) (hk : s.Keyed)
    (hb : bs.getD n [] = batch) (hd : ∀ item ∈ batch, item ∈ s₁.blockAll.dispatchable host)
    (hm : k ∈ batch.map WorkItem.id) :
    succeeds k = false ↔ ∃ t ≤ n + 1, FailsBy s succeeds bs k t := by
  constructor
  · intro hs
    obtain ⟨item, hi, rfl⟩ := List.mem_map.1 hm
    exact ⟨n + 1, le_rfl, .turn (hb ▸ hi) hs⟩
  · rintro ⟨t, ht, hf⟩
    obtain ⟨hu, item, hg, hdeps⟩ := h.batch_ready hk hd hm
    exact (h.turn_of_failsBy hk (h.unfinished hu) hg hdeps hf ht).1

theorem other_failed (h : AfterBatches s succeeds bs done n s₁) (hk : s.Keyed)
    (hb : bs.getD n [] = batch) (hm : k ∉ batch.map WorkItem.id) :
    s₁.blockAll.hasFailed k = true ↔ ∃ t ≤ n + 1, FailsBy s succeeds bs k t := by
  rw [h.blockAll_failed hk]
  constructor
  · rintro (hf | ⟨hu, item, hg, d, hmem, hf⟩)
    · obtain ⟨t, ht, hf⟩ := (h.failed k).1 hf
      exact ⟨t, by omega, hf⟩
    · obtain ⟨t, ht, hf⟩ := (h.failed d).1 hf
      rw [← hk k item hg]
      exact ⟨t + 1, by omega, .blocked (mem_pendingItems.2 ⟨k, hg, hu⟩) hmem hf⟩
  · rintro ⟨t, ht, hf⟩
    cases hf with
    | failed hf => exact .inl ((h.failed k).2 ⟨0, Nat.zero_le n, .failed hf⟩)
    | @turn t item hi hs =>
      by_cases hlt : t < n
      · exact .inl ((h.failed _).2 ⟨t + 1, hlt, .turn hi hs⟩)
      · obtain rfl : t = n := by omega
        exact absurd (List.mem_map_of_mem (hb ▸ hi)) hm
    | @blocked item d t hi hmem hf =>
      obtain ⟨k', hg, hu⟩ := mem_pendingItems.1 hi
      obtain rfl := hk k' item hg
      exact .inr ⟨hu, item, hg, d, hmem, (h.failed d).2 ⟨t, by omega, hf⟩⟩

/-- What a batch, or the pass that finds none, makes of it. -/
theorem step (h : AfterBatches s succeeds bs done n s₁) (hk : s.Keyed) {results : List WorkResult}
    (status : RunStatus) (hb : bs.getD n [] = batch)
    (hd : ∀ item ∈ batch, item ∈ s₁.blockAll.dispatchable host)
    (hr : BatchTells succeeds batch results) :
    AfterBatches s succeeds bs (done ++ batch.map WorkItem.id) (n + 1)
      (results.foldl withResult { s₁.blockAll with status }) := by
  have hsucc (k : Text) :
      (results.foldl withResult { s₁.blockAll with status }).hasSucceeded k = true ↔
        if k ∈ batch.map WorkItem.id then succeeds k = true else s₁.hasSucceeded k = true := by
    rw [hr.hasSucceeded_iff, ← hasSucceeded_blockAll (h.keyed hk)]
    rfl
  have hkept (k : Text) (hs : s₁.hasSucceeded k = true) :
      (results.foldl withResult { s₁.blockAll with status }).hasSucceeded k = true := by
    rw [hsucc, if_neg]
    · exact hs
    · intro hm
      rw [(isUnfinished_iff_neither.1 (h.batch_ready hk hd hm).1).1] at hs
      cases hs
  constructor
  · obtain ⟨d, hd⟩ := foldl_withResult_eq { s₁.blockAll with status } results
    obtain ⟨d', hd'⟩ := blockAll_eq s₁
    rw [hd, hd', h.rest]
  · intro k
    rw [hsucc, List.mem_append]
    split
    · rename_i hm
      have hn : s.hasSucceeded k = false :=
        (isUnfinished_iff_neither.1 (h.unfinished (h.batch_ready hk hd hm).1)).1
      simp [hn, hm]
    · rename_i hm
      rw [h.succeeded]
      simp [hm]
  · intro k
    rw [hr.hasFailed_iff]
    split
    · rename_i hm
      exact h.batch_failed hk hb hd hm
    · rename_i hm
      exact h.other_failed hk hb hm
  · intro k hm
    rcases List.mem_append.1 hm with hm | hm
    · obtain ⟨hu, hdeps⟩ := h.ready k hm
      exact ⟨hu, fun item hg d hmem => hkept d (hdeps item hg d hmem)⟩
    · obtain ⟨hu, item, hg, hdeps⟩ := h.batch_ready hk hd hm
      refine ⟨h.unfinished hu, fun item' hg' d hmem => hkept d (hdeps d ?_)⟩
      rw [hg] at hg'
      cases hg'
      exact hmem
  · intro k hm
    rw [Bool.eq_false_iff, Ne, isUnfinished_iff_neither, Bool.eq_false_iff, Bool.eq_false_iff,
      Ne, Ne, hsucc, hr.hasFailed_iff]
    split
    · cases succeeds k <;> simp
    · rename_i hn
      rintro ⟨hs, hf⟩
      have hend := h.ended k ((List.mem_append.1 hm).resolve_right hn)
      have hf₁ : s₁.hasFailed k = false := by
        rw [Bool.eq_false_iff]
        exact fun hf₁ => hf ((h.blockAll_failed hk).2 (.inl hf₁))
      rw [isUnfinished_iff_neither.2 ⟨Bool.eq_false_iff.2 hs, hf₁⟩] at hend
      cases hend
  · intro t ht item hi
    by_cases hlt : t < n
    · exact List.mem_append_left _ (h.batched t hlt item hi)
    · obtain rfl : t = n := by omega
      exact List.mem_append_right _ (List.mem_map_of_mem (hb ▸ hi))

/-- A batch leaves fewer items unfinished. -/
theorem openKeys_lt (h : AfterBatches s succeeds bs done n s₁) (hk : s.Keyed)
    {results : List WorkResult} (hne : batch ≠ [])
    (hd : ∀ item ∈ batch, item ∈ s₁.blockAll.dispatchable host)
    (hr : BatchTells succeeds batch results) :
    (results.foldl withResult { s₁.blockAll with status := .running }).openKeys.length <
      s₁.openKeys.length := by
  have hends : BatchEnded batch results := hr.imp fun _ _ ht => ht.1
  obtain ⟨item, hi⟩ := List.exists_mem_of_ne_nil batch hne
  apply openKeys_results results _ (h.keyed hk) (hd item hi) (hends.of_item hi)
  · intro r hr
    obtain ⟨item, _, he⟩ := hends.of_result hr
    exact ⟨item.id, he⟩
  · intro k
    rw [foldl_withResult_status]
    rfl
  · exact (foldl_withResult_workItems _ results).trans (blockAll_workItems s₁)

end Batch

/-- Nothing is left to block just where every failure has spread. -/
theorem newlyBlocked_iff (h : AfterBatches s succeeds bs done n s₁) (hk : s.Keyed)
    (hn : bs.length ≤ n) (hle : n ≤ bs.length + 1)
    (hend : n = bs.length + 1 ∨ s₁.pendingItems = []) :
    s₁.newlyBlocked = [] ↔ ∀ k t, FailsBy s succeeds bs k t →
      ∃ t' ≤ bs.length + 1, FailsBy s succeeds bs k t' := by
  rw [newlyBlocked_nil]
  constructor
  · intro hnone k t hf
    have hfailed : s₁.hasFailed k = true := by
      induction hf with
      | failed hf => exact (h.failed _).2 ⟨0, Nat.zero_le n, .failed hf⟩
      | @turn t item hi hs =>
        have hlt : t < bs.length := by
          by_contra hge
          rw [List.getD_eq_default _ _ (Nat.le_of_not_lt hge)] at hi
          cases hi
        exact (h.failed _).2 ⟨t + 1, by omega, .turn hi hs⟩
      | @blocked item d t hi hmem _ ih =>
        obtain ⟨k', hg, hu⟩ := mem_pendingItems.1 hi
        obtain rfl := hk k' item hg
        by_contra hf
        rw [Bool.not_eq_true] at hf
        have hs := h.not_succeeded hg hu hmem ih
        have hg₁ : s₁.workItems.get? item.id = some item := h.workItems ▸ hg
        have hp := mem_pendingItems.2 ⟨item.id, hg₁, isUnfinished_iff_neither.2 ⟨hs, hf⟩⟩
        rw [hnone item hp d hmem] at ih
        cases ih
    obtain ⟨t', ht, hf⟩ := (h.failed k).1 hfailed
    exact ⟨t', by omega, hf⟩
  · intro hall item hp d hmem
    rcases hend with rfl | hnil
    · rw [Bool.eq_false_iff]
      intro hf
      obtain ⟨t, ht, hf⟩ := (h.failed d).1 hf
      obtain ⟨k, hg, hu⟩ := mem_pendingItems.1 hp
      rw [h.workItems] at hg
      have hi : item ∈ s.pendingItems := mem_pendingItems.2 ⟨k, hg, h.unfinished hu⟩
      obtain ⟨t', ht', hf'⟩ := hall _ _ (.blocked hi hmem hf)
      have hfailed := (h.failed _).2 ⟨t', ht', hf'⟩
      rw [hk k item hg, (isUnfinished_iff_neither.1 hu).2] at hfailed
      cases hfailed
    · rw [hnil] at hp
      cases hp

end AfterBatches

theorem batchesAfter_cons {fuel : Nat} {batch : List WorkItem}
    (hb : nextBatch maxRead (s.readyAfter host succeeds done) = batch) (hne : batch ≠ []) :
    batchesAfter host maxRead s succeeds (fuel + 1) done =
      batch :: batchesAfter host maxRead s succeeds fuel (done ++ batch.map WorkItem.id) := by
  obtain ⟨item, items, rfl⟩ := List.exists_cons_of_ne_nil hne
  rw [batchesAfter, hb]

/-- The batch that is due is the next of all batches. -/
theorem drop_batches {fuel : Nat} {batch : List WorkItem}
    (hbs : bs.drop n = batchesAfter host maxRead s succeeds (fuel + 1) done)
    (hb : nextBatch maxRead (s.readyAfter host succeeds done) = batch) (hne : batch ≠ []) :
    n < bs.length ∧ bs.getD n [] = batch ∧ bs.drop (n + 1) =
      batchesAfter host maxRead s succeeds fuel (done ++ batch.map WorkItem.id) := by
  rw [batchesAfter_cons hb hne] at hbs
  have hlt : n < bs.length := by
    by_contra hge
    rw [List.drop_eq_nil_of_le (Nat.le_of_not_lt hge)] at hbs
    cases hbs
  rw [List.drop_eq_getElem_cons hlt] at hbs
  obtain ⟨hhead, htail⟩ := List.cons.inj hbs
  refine ⟨hlt, ?_, htail⟩
  rw [List.getD_eq_getElem _ _ hlt, hhead]

/-- All batches have ended, and nothing can be dispatched any more. -/
def AfterAll (s : RunState) (succeeds : Text → Bool) (bs : List (List WorkItem))
    (s' : RunState) : Prop :=
  ∃ done n, AfterBatches s succeeds bs done n s' ∧ bs.length ≤ n ∧ n ≤ bs.length + 1 ∧
    (n = bs.length + 1 ∨ s'.pendingItems = [])

/-- A pass for every unfinished item takes the loop through all batches. -/
theorem runLoop_gives (hm : 1 ≤ maxRead) (hk : s.Keyed) (fuel : Nat)
    (h : AfterBatches s succeeds bs done n s₁)
    (hbs : bs.drop n = batchesAfter host maxRead s succeeds fuel done) (hn : n ≤ bs.length)
    (hlen : s₁.openKeys.length ≤ fuel) :
    Gives host succeeds (AfterAll s succeeds bs) (runLoop host maxRead fuel s₁) := by
  induction fuel generalizing s₁ done n with
  | zero =>
    have hle : bs.length ≤ n := List.drop_eq_nil_iff.1 hbs
    exact Gives.pure ⟨done, n, h, hle, by omega, .inr (pendingItems_nil hlen)⟩
  | succ fuel ih =>
    have heq : s₁.blockAll.dispatchable host = s.readyAfter host succeeds done :=
      h.dispatchable_eq hk
    have next {batch : List WorkItem} {results : List WorkResult}
        (hb : nextBatch maxRead (s₁.blockAll.dispatchable host) = batch) (hne : batch ≠ [])
        (hd : ∀ item ∈ batch, item ∈ s₁.blockAll.dispatchable host)
        (hr : BatchTells succeeds batch results) :
        Gives host succeeds (AfterAll s succeeds bs) (runLoop host maxRead fuel
          (results.foldl withResult { s₁.blockAll with status := .running })) := by
      obtain ⟨hlt, hget, htail⟩ := drop_batches hbs (heq ▸ hb) hne
      have hfewer := h.openKeys_lt hk hne hd hr
      exact ih (h.step hk .running hget hd hr) htail hlt (by omega)
    rw [runLoop]
    apply (Gives.any _).bind
    intro _ _
    apply (Gives.of_within fun w => persistBlocked_within rfl s₁).bind
    rintro _ rfl
    simp only
    split
    · rename_i hnil
      have hnone : bs.drop n = [] := by
        have hbatch : nextBatch maxRead [] = [] := List.take_nil
        rw [hbs, batchesAfter, ← heq, hnil, hbatch]
      have hle : bs.length ≤ n := List.drop_eq_nil_iff.1 hnone
      have hempty : ∀ item ∈ ([] : List WorkItem), item ∈ s₁.blockAll.dispatchable host :=
        fun _ hi => absurd hi List.not_mem_nil
      have hstep : AfterBatches s succeeds bs (done ++ []) (n + 1) s₁.blockAll :=
        h.step hk s₁.blockAll.status (List.getD_eq_default _ _ hle) hempty .nil
      exact Gives.pure ⟨_, n + 1, hstep, by omega, by omega, .inl (by omega)⟩
    · rename_i hne
      apply (Gives.any _).bind
      intro _ _
      split
      · rename_i item hf
        have hd : item ∈ s₁.blockAll.dispatchable host := List.mem_of_find?_eq_some hf
        apply (runWriter_gives (dispatchTurn_of_dispatchable hd)).bind
        rintro _ ⟨r, hr, rfl⟩
        refine @next [item] [r] ?_ (List.cons_ne_nil _ _) ?_ (.cons hr .nil)
        · have hf : (s₁.blockAll.dispatchable host).find? WorkItem.isWriter = some item := hf
          rw [nextBatch, hf]
        · intro other ho
          rw [List.mem_singleton.1 ho]
          exact hd
      · rename_i hf
        have hd (item : WorkItem) (hi : item ∈ (s₁.blockAll.dispatchable host).take maxRead) :
            item ∈ s₁.blockAll.dispatchable host := List.mem_of_mem_take hi
        apply (runReaders_gives fun item hi => dispatchTurn_of_dispatchable (hd item hi)).bind
        rintro _ ⟨results, hr, rfl⟩
        refine next ?_ ?_ hd hr
        · have hf : (s₁.blockAll.dispatchable host).find? WorkItem.isWriter = none := hf
          rw [nextBatch, hf]
        · obtain ⟨item, items, he⟩ := List.exists_cons_of_ne_nil hne
          rw [he]
          obtain ⟨m, rfl⟩ : ∃ m, maxRead = m + 1 := ⟨maxRead - 1, by omega⟩
          exact List.cons_ne_nil _ _

/-- Where `run_ready` returns, the run has settled just where every failure has spread by the pass
that follows its last batch. -/
theorem runReady_settled_iff {s' : RunState} {w w' : World} {events : List Event}
    (hm : 1 ≤ maxRead) (hk : s.Keyed)
    (h : Prog.Steps (Next host) (runReady host maxRead s) w (.pure s') w')
    (hl : w'.log = events ++ w.log) (ht : TurnsEnd succeeds events) :
    Settled host maxRead s s' ↔ FailuresSpread host maxRead s succeeds := by
  rw [runReady_settled hm hk h]
  have hstart : AfterBatches s succeeds (batches host maxRead s succeeds) [] 0 s := .start s
  have hloop := runLoop_gives hm hk s.workItems.size hstart rfl (Nat.zero_le _)
      (openKeys_length_le s)
  have hrun : Gives host succeeds (fun s' => s'.newlyBlocked = [] ↔
      FailuresSpread host maxRead s succeeds) (runReady host maxRead s) := by
    apply hloop.bind
    rintro s₁ ⟨done, n, hrun, hn, hle, hend⟩
    apply (Gives.of_within fun w => conclude_within rfl s₁).mono
    rintro s' ⟨status, _, rfl⟩
    exact hrun.newlyBlocked_iff hk hn hle hend
  exact ((hrun w).returns trivial (steps_telling h hl ht)).2

end Reached

/-- In the chain `a` succeeds, and `b` fails. -/
def firstSucceeds (k : Text) : Bool := k = text "a"

theorem chain_failsBy {k : Text} {t : Nat}
    (h : FailsBy chainState firstSucceeds (batches sampleHost 2 chainState firstSucceeds) k t) :
    k = text "b" ∧ t = 2 ∨ k = text "c" ∧ t = 3 := by
  have hb : (batches sampleHost 2 chainState firstSucceeds).map (List.map WorkItem.id) =
      [[text "a"], [text "b"]] := by decide +kernel
  have hp : ∀ item ∈ chainState.pendingItems,
      (item.id = text "a" ∧ item.dependencies = []) ∨
      (item.id = text "b" ∧ item.dependencies = [text "a"]) ∨
      (item.id = text "c" ∧ item.dependencies = [text "b"]) := by decide +kernel
  induction h with
  | failed h => cases h
  | @turn t item hi hs =>
    have hm : item.id ∈ ([[text "a"], [text "b"]] : List (List Text)).getD t [] := by
      rw [← hb, ← List.map_nil, List.getD_map]
      exact List.mem_map_of_mem hi
    match t with
    | 0 =>
      rw [List.mem_singleton.1 hm] at hs
      cases hs
    | 1 => exact .inl ⟨List.mem_singleton.1 hm, rfl⟩
    | t + 2 => cases hm
  | @blocked item d t hi hd _ ih =>
    rcases hp item hi with ⟨_, he⟩ | ⟨_, he⟩ | ⟨hk, he⟩
    · rw [he] at hd
      cases hd
    · rw [he] at hd
      obtain rfl := List.mem_singleton.1 hd
      rcases ih with ⟨hk, _⟩ | ⟨hk, _⟩ <;> cases hk
    · rw [he] at hd
      obtain rfl := List.mem_singleton.1 hd
      rcases ih with ⟨_, rfl⟩ | ⟨hk, _⟩
      · exact .inr ⟨hk, rfl⟩
      · cases hk

/-- The pass after the last batch blocks `c`, and the run settles. -/
theorem chain_settled : ∃ s', Settled sampleHost 2 chainState s' := by
  have hrun : (scriptedRun sampleHost (sampleScript singlePlan ["a"]) chainState).1.value?.isSome ∧
      (scriptedRun sampleHost (sampleScript singlePlan ["a"]) chainState).2.log.all
        (Event.tells firstSucceeds) = true := by decide +kernel
  have hbatches : (batches sampleHost 2 chainState firstSucceeds).length = 2 := by decide +kernel
  obtain ⟨s', hs⟩ := Option.isSome_iff_exists.1 hrun.1
  refine ⟨s', (runReady_settled_iff (by decide) chainState_keyed (scriptedRun_steps hs)
    (List.append_nil _).symm (List.all_eq_true.1 hrun.2)).2 fun k t h => ⟨t, ?_, h⟩⟩
  rw [hbatches]
  rcases chain_failsBy h with ⟨_, rfl⟩ | ⟨_, rfl⟩ <;> omega

end GoalRouter
