import GoalRouter.IdentifierRedaction
import GoalRouter.Library.ProgramTasks

namespace GoalRouter
open Library
set_option autoImplicit true

/-- How a turn ends for which `execute` writes an entry. -/
def keepsEntry : Outcome → Bool
  | .ok _ => true
  | .error e => e.endsExecute

/-- The `results` of a batch, with how the turn of each item ended. -/
structure Collecting where
  results : Collected
  turns : Text → Option Outcome

namespace Collecting

def empty : Collecting := ⟨∅, fun _ => none⟩

/-- The turn of an item has ended, and `execute` keeps what it leaves behind. -/
def record (c : Collecting) (item : WorkItem) (outcome : Outcome) : Collecting where
  results := if keepsEntry outcome then c.results.set item.id (readerResult item outcome)
    else c.results
  turns := Function.update c.turns item.id (some outcome)

end Collecting

/-- How the task of `execute` ends. One that is to be cancelled as it returns ends cancelled. -/
inductive ExecuteEnds : Outcome → TaskOutcome PyError → Prop
  | returned : ExecuteEnds (.ok result) .returned
  | returnedLate : ExecuteEnds (.ok result) .cancelled
  | cancelled (h : e.kind = .cancelledError) : ExecuteEnds (.error e) .cancelled
  | raised (h : e.kind ≠ .cancelledError) : ExecuteEnds (.error e) (.raised e)

/-- One step of `execute`, where turns end with the given errors only: the turn awaits, or it ends
in any way. A failure of `_dispatch` before the turn comes in the first step. -/
inductive Execute (host : Host) (s : RunState) (raises : PyError → Prop) :
    TaskBody WorkItem Collecting PyError
  | awaits (hd : first = true → ∃ turn, dispatchTurn host s item = .ok turn) :
      Execute host s raises item first c none c
  | ends (hd : ∀ e, first = true → dispatchTurn host s item = .error e → outcome = .error e)
      (hr : ∀ e, outcome = .error e → raises e) (he : ExecuteEnds outcome t) :
      Execute host s raises item first c (some t) (c.record item outcome)

abbrev ReadBatch := TaskGroup WorkItem Collecting PyError

/-- What `except* Exception` lets through. `SystemExit` and `KeyboardInterrupt` leave a group as
they are (and the event loop with it); the others are what is left of the exception group. -/
def escaping (errors : List PyError) : Option PyError :=
  match errors.find? fun e => e.kind = .other (text "SystemExit") ||
      e.kind = .other (text "KeyboardInterrupt") with
  | some e => some e
  | none =>
    match errors.filter fun e => !e.kind.isException with
    | [] => none
    | rest => some ⟨.other (text "BaseExceptionGroup"), text "unhandled errors in a TaskGroup (" ++
        decimal rest.length ++ text " sub-exception" ++
        (if rest.length = 1 then [] else text "s") ++ text ")"⟩

/-- `[results[item.id] for item in items]`. -/
def collected (host : Host) (items : List WorkItem) (results : Collected) :
    Except PyError (List WorkResult) :=
  items.mapM fun item =>
    match results.get? item.id with
    | some result => .ok result
    | none => .error ⟨.keyError, host.repr item.id⟩

/-- The result of `_run_read_batch`, once its group is left. Of what the group raises, `Exception`s
are swallowed. -/
def readBatchResult (host : Host) (items : List WorkItem) (g : ReadBatch) :
    Option (Except PyError (List WorkResult)) :=
  match g.exited with
  | none => none
  | some .cancelled => some (.error .cancelled)
  | some .returned => some (collected host items g.store.results)
  | some (.raised errors) =>
    match escaping errors with
    | some e => some (.error e)
    | none => some (collected host items g.store.results)

/-- What is reported for an item: the turn's own result, or a failure. -/
def ReportsTurn (turns : Text → Option Outcome) (item : WorkItem) (result : WorkResult) : Prop :=
  match turns item.id with
  | some (.ok own) => result = { own with workItemId := item.id }
  | some (.error _) => result.workItemId = item.id ∧ result.status = .failed
  | none => False

/-- A task that has ended has written its entry. -/
def Recorded (items : List WorkItem) (g : ReadBatch) : Prop :=
  ∀ item ∈ items,
    ((g.stage item).isRunning = true → g.store.turns item.id = none) ∧
    ((g.stage item).isRunning = false → ∃ outcome, g.store.turns item.id = some outcome ∧
      g.store.results.get? item.id = some (readerResult item outcome))

section Recording

variable {host : Host} {s : RunState} {items : List WorkItem} {g g' : ReadBatch}

theorem escaping_eq_none {errors : List PyError} (h : ∀ e ∈ errors, e.kind.isException = true) :
    escaping errors = none := by
  have hfind : errors.find? (fun e => e.kind = .other (text "SystemExit") ||
      e.kind = .other (text "KeyboardInterrupt")) = none := by
    apply List.find?_eq_none.2
    intro e he hk
    have hx := h e he
    simp only [Bool.or_eq_true, decide_eq_true_eq] at hk
    rcases hk with hk | hk
    all_goals
      rw [hk] at hx
      revert hx
      decide
  have hfilter : errors.filter (fun e => !e.kind.isException) = [] := by
    apply List.filter_eq_nil_iff.2
    intro e he
    rw [h e he]
    exact Bool.false_ne_true
  rw [escaping, hfind, hfilter]

theorem start_recorded : Recorded items (TaskGroup.start Collecting.empty) :=
  fun _ _ => ⟨fun _ => rfl, nofun⟩

theorem record_other {c : Collecting} {item other : WorkItem} {outcome : Outcome}
    (h : other.id ≠ item.id) :
    (c.record item outcome).turns other.id = c.turns other.id ∧
      (c.record item outcome).results.get? other.id = c.results.get? other.id := by
  refine ⟨Function.update_of_ne h .., ?_⟩
  rw [Collecting.record]
  split
  · exact Dict.get?_set_of_ne _ _ h
  · rfl

theorem record_self (c : Collecting) (item : WorkItem) {outcome : Outcome}
    (h : keepsEntry outcome = true) : (c.record item outcome).turns item.id = some outcome ∧
      (c.record item outcome).results.get? item.id = some (readerResult item outcome) := by
  refine ⟨Function.update_self .., ?_⟩
  rw [Collecting.record, h]
  exact Dict.get?_set_self ..

abbrev CaughtExecute (host : Host) (s : RunState) := Execute host s fun e => e.endsExecute = true

theorem execute_store {item : WorkItem} {c c' : Collecting} {next : Option (TaskOutcome PyError)}
    (h : CaughtExecute host s item first c next c') :
    (next = none ∧ c' = c) ∨
      ∃ outcome t, next = some t ∧ keepsEntry outcome = true ∧ c' = c.record item outcome := by
  cases h with
  | awaits => exact .inl ⟨rfl, rfl⟩
  | @ends _ _ outcome _ _ _ hr he =>
    refine .inr ⟨outcome, _, rfl, ?_, rfl⟩
    cases outcome with
    | ok => rfl
    | error e => exact hr e rfl

theorem execute_raises {item : WorkItem} {c c' : Collecting} {e : PyError}
    (h : CaughtExecute host s item first c (some (.raised e)) c') : e.kind.isException = true := by
  cases h with
  | ends _ hr he =>
    cases he with
    | raised hk =>
      have hc := hr e rfl
      rw [PyError.endsExecute, Bool.or_eq_true, decide_eq_true_eq] at hc
      exact hc.resolve_left hk

theorem Recorded.moves (hn : (items.map WorkItem.id).Nodup) (h : Recorded items g)
    (hm : TaskGroup.Moves items (CaughtExecute host s) g g') : Recorded items g' := by
  intro item hitem
  cases hm with
  | parent hstore hstage =>
    rw [hstore, hstage item hitem]
    exact h item hitem
  | settle i outcome hi hs hstore hstage =>
    rw [hstore, hstage item hitem]
    by_cases he : item = i
    · subst he
      rw [if_pos rfl]
      have hdone : (g.stage item).isRunning = false := by rw [hs]; rfl
      exact ⟨nofun, fun _ => (h item hitem).2 hdone⟩
    · rw [if_neg he]
      exact h item hitem
  | body i outcome hi hs hb hstage =>
    obtain ⟨first, hb⟩ := hb
    rw [hstage item hitem]
    by_cases he : item = i
    · subst he
      rw [if_pos rfl]
      rcases execute_store hb with ⟨rfl, hc⟩ | ⟨outcome, t, rfl, hk, hc⟩
      · rw [hc]
        exact ⟨fun _ => (h item hitem).1 hs, nofun⟩
      · rw [hc]
        exact ⟨nofun, fun _ => ⟨outcome, record_self _ _ hk⟩⟩
    · rw [if_neg he]
      have hid : item.id ≠ i.id := fun hid => he (List.inj_on_of_nodup_map hn hitem hi hid)
      rcases execute_store hb with ⟨-, hc⟩ | ⟨outcome, t, -, -, hc⟩
      · rw [hc]
        exact h item hitem
      · rw [hc, (record_other hid).1, (record_other hid).2]
        exact h item hitem

theorem reports_readerResult (h : turns item.id = some outcome) :
    ReportsTurn turns item (readerResult item outcome) := by
  rw [ReportsTurn, h]
  cases outcome with
  | ok own => rfl
  | error e => exact ⟨rfl, rfl⟩

theorem mapM_found {α β : Type} {f : α → Except PyError β} {R : α → β → Prop} {xs : List α}
    (h : ∀ x ∈ xs, ∃ y, f x = .ok y ∧ R x y) : ∃ ys, xs.mapM f = .ok ys ∧ List.Forall₂ R xs ys := by
  induction xs with
  | nil => exact ⟨[], rfl, .nil⟩
  | cons x xs ih =>
    obtain ⟨y, hy, hR⟩ := h x List.mem_cons_self
    obtain ⟨ys, hys, hRs⟩ := ih fun z hz => h z (List.mem_cons_of_mem x hz)
    refine ⟨y :: ys, ?_, .cons hR hRs⟩
    rw [List.mapM_cons, hy, hys]
    rfl

theorem Recorded.result (h : Recorded items g) (hx : g.exited = some x)
    (hleft : TaskGroup.Left items g x)
    (hr : g.Raises (fun e => e.kind.isException = true) items) :
    ∃ results, readBatchResult host items g = some (.ok results) ∧
      List.Forall₂ (ReportsTurn g.store.turns) items results := by
  have hfound : ∀ item ∈ items, ∃ result,
      (match g.store.results.get? item.id with
        | some result => .ok result
        | none => .error ⟨.keyError, host.repr item.id⟩ : Except PyError WorkResult) = .ok result ∧
      ReportsTurn g.store.turns item result := by
    intro item hitem
    have hsettled : (g.stage item).isRunning = false := by rw [hleft.settled item hitem]; rfl
    obtain ⟨outcome, hturn, hresult⟩ := (h item hitem).2 hsettled
    exact ⟨readerResult item outcome, by rw [hresult], reports_readerResult hturn⟩
  obtain ⟨results, hm, hreports⟩ := mapM_found hfound
  refine ⟨results, ?_, hreports⟩
  rw [readBatchResult, hx]
  cases x with
  | cancelled => exact absurd rfl hleft.exit_ne
  | returned => exact congrArg some hm
  | raised errors =>
    simp only [escaping_eq_none (hr.exited errors hx)]
    exact congrArg some hm

end Recording

/-- Whatever the turns do, short of a `BaseException` that is no `Exception`, and however they
interleave, a batch never raises: once its group is left it returns the result of every item in
order, and it is left once every turn has ended. -/
theorem read_batch_complete {host : Host} {s : RunState} {items : List WorkItem} {g : ReadBatch}
    (hne : items ≠ []) (hn : (items.map WorkItem.id).Nodup)
    (hr : TaskGroup.Runs items (CaughtExecute host s) (.start .empty) g) :
    (∀ x, readBatchResult host items g = some x → ∃ results, x = .ok results ∧
      List.Forall₂ (ReportsTurn g.store.turns) items results) ∧
    ((∀ item ∈ items, (g.store.turns item.id).isSome) →
      Eventually (TaskGroup.Step items (CaughtExecute host s)) (fun g' => ∃ results,
        readBatchResult host items g' = some (.ok results) ∧
          List.Forall₂ (ReportsTurn g'.store.turns) items results) g) := by
  obtain ⟨hu, hb, hrec⟩ := hr.keeps (TaskGroup.start_undisturbed hne _) (TaskGroup.start_begun _)
    start_recorded fun _ _ h hm => h.moves hn hm
  have hraises := hr.raises hne execute_raises
  constructor
  · intro x hx
    cases he : g.exited with
    | none =>
      rw [readBatchResult, he] at hx
      cases hx
    | some exit =>
      obtain ⟨results, hres, hreports⟩ := hrec.result he (hu.left exit he) hraises
      exact ⟨results, Option.some.inj (hx.symm.trans hres), hreports⟩
  · intro hturns
    have hended : g.Ended items := by
      intro item hitem
      rw [Bool.eq_false_iff]
      intro hrun
      have hsome := hturns item hitem
      rw [(hrec item hitem).1 hrun] at hsome
      cases hsome
    have hkept (g₁ g₂ : ReadBatch)
        (h : Recorded items g₁ ∧ g₁.Raises (fun e => e.kind.isException = true) items)
        (hu : g₁.Undisturbed items) (hs : TaskGroup.Step items (CaughtExecute host s) g₁ g₂)
        (hm : TaskGroup.Moves items (CaughtExecute host s) g₁ g₂) :
        Recorded items g₂ ∧ g₂.Raises (fun e => e.kind.isException = true) items :=
      ⟨h.1.moves hn hm, h.2.step hu execute_raises hs⟩
    apply (hended.eventually_exits hu hb ⟨hrec, hraises⟩ hkept).mono
    rintro g' ⟨hx, hu', hrec', hraises'⟩
    obtain ⟨exit, he⟩ := Option.isSome_iff_exists.1 hx
    exact hrec'.result he (hu'.left exit he) hraises'

/-- A turn may end with what is no `Exception`. -/
def exitError : PyError := ⟨.other (text "GeneratorExit"), []⟩

/-- `execute` where a turn may end with any error. -/
abbrev anyExecute := Execute sampleHost (singleState (text "run") (text "a")) fun _ => True

def exitedBatch : ReadBatch :=
  { (TaskGroup.start Collecting.empty).setStage singleItem (.done (.raised exitError)) with
    store := Collecting.empty.record singleItem (.error exitError) }

/-- It leaves no entry, and `except* Exception` lets it through. -/
theorem exit_escapes_batch :
    ¬∀ g, TaskGroup.Runs [singleItem] anyExecute (.start .empty) g →
      ∀ x, readBatchResult sampleHost [singleItem] g = some x → ∃ results, x = .ok results ∧
        List.Forall₂ (ReportsTurn g.store.turns) [singleItem] results := by
  intro hall
  have hends : anyExecute singleItem true Collecting.empty (some (.raised exitError))
      (Collecting.empty.record singleItem (.error exitError)) :=
    .ends (fun _ _ h => by cases h) (fun _ _ => trivial) (.raised (by decide))
  have hfirst : TaskGroup.Step [singleItem] anyExecute (.start .empty) exitedBatch :=
    @TaskGroup.Step.first _ _ _ _ [singleItem] anyExecute singleItem _ (.start .empty) _ (.head _)
      rfl hends
  let g := exitedBatch.settle [singleItem] singleItem (.raised exitError)
  have hsettled : TaskGroup.Step [singleItem] anyExecute exitedBatch g := .settle (.head _) rfl
  let g' := g.resume [singleItem] ⟨1, false, none⟩ (.cancelled none true)
  have hresumed : TaskGroup.Step [singleItem] anyExecute g g' := .resume rfl rfl
  have hbegun : TaskGroup.Orderly [singleItem] exitedBatch g := by
    intro _ _ i hi b hs
    cases List.mem_singleton.1 hi
    cases hs
  have hr : TaskGroup.Runs [singleItem] anyExecute (.start .empty) g' :=
    ((Relation.ReflTransGen.single ⟨hfirst, nofun⟩).tail ⟨hsettled, hbegun⟩).tail ⟨hresumed, nofun⟩
  obtain ⟨results, he, -⟩ := hall g' hr _ rfl
  cases he

/-- An item without a route fails in the first step of its task. -/
def unroutedItem : WorkItem := { singleItem with id := text "b" }

def sampleBatch : List WorkItem := [singleItem, unroutedItem]

abbrev sampleExecute := CaughtExecute sampleHost (singleState (text "run") (text "a"))

/-- What a dictionary without the item raises. -/
def unroutedError : PyError := ⟨.keyError, sampleHost.repr unroutedItem.id⟩

/-- One task awaits as the other fails. -/
def failedBatch : ReadBatch :=
  let g : ReadBatch := (TaskGroup.start .empty).setStage singleItem .suspended
  { g.setStage unroutedItem (.done (.raised unroutedError)) with
    store := Collecting.empty.record unroutedItem (.error unroutedError) }

def abortedBatch : ReadBatch :=
  failedBatch.settle sampleBatch unroutedItem (.raised unroutedError)

/-- The sibling is cancelled in its turn, and both tasks are settled. -/
def settledBatch : ReadBatch :=
  let g : ReadBatch := { abortedBatch.setStage singleItem (.done .cancelled) with
    store := abortedBatch.store.record singleItem (.error .cancelled) }
  g.settle sampleBatch singleItem .cancelled

theorem failedBatch_runs :
    TaskGroup.Runs sampleBatch sampleExecute (.start .empty) failedBatch := by
  have hawaits : sampleExecute singleItem true .empty none .empty := .awaits fun _ => ⟨_, rfl⟩
  have hfails : sampleExecute unroutedItem true .empty (some (.raised unroutedError))
      (Collecting.empty.record unroutedItem (.error unroutedError)) :=
    .ends (fun _ _ h => by cases h; rfl) (fun _ h => by cases h; rfl) (.raised (by decide))
  have hawaited := @TaskGroup.Step.first _ _ _ _ sampleBatch sampleExecute singleItem none
    (.start .empty) .empty (.head _) rfl hawaits
  have hfailed := @TaskGroup.Step.first _ _ _ _ sampleBatch sampleExecute unroutedItem _
    ((TaskGroup.start Collecting.empty).setStage singleItem .suspended) _ (.tail _ (.head _)) rfl
    hfails
  exact (Relation.ReflTransGen.single ⟨hawaited, nofun⟩).tail ⟨hfailed, nofun⟩

theorem settledBatch_runs : TaskGroup.Runs sampleBatch sampleExecute failedBatch settledBatch := by
  have hcancelled : sampleExecute singleItem false abortedBatch.store (some .cancelled)
      (abortedBatch.store.record singleItem (.error .cancelled)) :=
    .ends nofun (fun _ h => by cases h; rfl) (.cancelled rfl)
  have hbegun : ∀ g, TaskGroup.Orderly sampleBatch failedBatch g := by
    intro g _ _ i hi b hs
    rcases List.mem_pair.1 hi with rfl | rfl
    · cases hs
    · cases hs
  have haborted : TaskGroup.Step sampleBatch sampleExecute failedBatch abortedBatch :=
    .settle (.tail _ (.head _)) rfl
  have hended := @TaskGroup.Step.later _ _ _ _ sampleBatch sampleExecute singleItem _ abortedBatch _
    (.head _) rfl hcancelled
  have hsettled := @TaskGroup.Step.settle _ _ _ _ sampleBatch sampleExecute singleItem .cancelled
    { abortedBatch.setStage singleItem (.done .cancelled) with
      store := abortedBatch.store.record singleItem (.error .cancelled) } (.head _) rfl
  exact ((Relation.ReflTransGen.single ⟨haborted, hbegun _⟩).tail ⟨hended, nofun⟩).tail
    ⟨hsettled, nofun⟩

/-- A turn in flight is cancelled by the failure of its sibling. -/
theorem read_batch_complete_sample : ∃ g,
    TaskGroup.Runs sampleBatch sampleExecute (.start .empty) g ∧
      ∃ results, readBatchResult sampleHost sampleBatch g = some (.ok results) ∧
        List.Forall₂ (ReportsTurn g.store.turns) sampleBatch results := by
  let g : ReadBatch := settledBatch.resume sampleBatch ⟨1, false, none⟩ (.cancelled none true)
  have hresumed : TaskGroup.Step sampleBatch sampleExecute settledBatch g := .resume rfl rfl
  have hr : TaskGroup.Runs sampleBatch sampleExecute (.start .empty) g :=
    (failedBatch_runs.trans settledBatch_runs).tail ⟨hresumed, nofun⟩
  have hx : g.exited = some (.raised [unroutedError]) := rfl
  have hcomplete := (read_batch_complete (by decide) (by decide) hr).1
  cases hres : readBatchResult sampleHost sampleBatch g with
  | none =>
    rw [readBatchResult, hx] at hres
    cases hres
  | some x =>
    obtain ⟨results, rfl, hreports⟩ := hcomplete x hres
    exact ⟨g, hr, results, hres, hreports⟩

end GoalRouter
