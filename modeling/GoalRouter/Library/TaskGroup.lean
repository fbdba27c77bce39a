import GoalRouter.Library.AsyncTask
import GoalRouter.Library.Progress
import Mathlib.Logic.Function.Basic
import Mathlib.Logic.Relation

namespace Library
set_option autoImplicit true

/-- How far a task of a group is. One that is cancelled before its first step never runs. -/
inductive TaskStage (ε : Type) where
  | created (cancelled : Bool)
  | suspended
  | done (outcome : TaskOutcome ε)
  | settled
  deriving DecidableEq

namespace TaskStage

/-- The body of the task has not run yet, or waits. -/
def isRunning : TaskStage ε → Bool
  | .created _ | .suspended => true
  | _ => false

/-- A request to cancel the task. A suspended one is resumed with it, as with anything else. -/
def cancel : TaskStage ε → TaskStage ε
  | .created _ => .created true
  | stage => stage

def isSettled : TaskStage ε → Bool
  | .settled => true
  | _ => false

theorem isSettled_iff {stage : TaskStage ε} : stage.isSettled = true ↔ stage = .settled := by
  cases stage <;> simp [isSettled]

@[simp] theorem cancel_eq_settled {stage : TaskStage ε} :
    stage.cancel = .settled ↔ stage = .settled := by
  cases stage <;> simp [cancel]

/-- What the step of a body makes of its task. -/
def afterStep : Option (TaskOutcome ε) → TaskStage ε
  | some outcome => .done outcome
  | none => .suspended

end TaskStage

/-- How the block of a group is left. -/
inductive GroupExit (ε : Type) where
  | returned
  | cancelled
  | raised (errors : List ε)

/-- A task group whose block has ended, so that its parent waits for the tasks. They share a
store. -/
structure TaskGroup (ι σ ε : Type) where
  stage : ι → TaskStage ε
  store : σ
  aborting : Bool
  errors : List ε
  parentCancelRequested : Bool
  parent : CancelState Unit
  waiter : Waiter Unit ε
  propagate : Bool
  exited : Option (GroupExit ε)

/-- What one step of a body may do with the store, the first or a later one: suspend again, or end
with an outcome. -/
abbrev TaskBody (ι σ ε : Type) := ι → Bool → σ → Option (TaskOutcome ε) → σ → Prop

namespace TaskGroup

variable {ι σ ε : Type}

/-- Every task is there, and the parent begins to wait. -/
def start (store : σ) : TaskGroup ι σ ε where
  stage _ := .created false
  store := store
  aborting := false
  errors := []
  parentCancelRequested := false
  parent := ⟨0, false, none⟩
  waiter := .pending
  propagate := false
  exited := none

def AllSettled (g : TaskGroup ι σ ε) (members : List ι) : Prop :=
  ∀ i ∈ members, g.stage i = .settled

instance (g : TaskGroup ι σ ε) (members : List ι) : Decidable (g.AllSettled members) :=
  decidable_of_iff (members.all fun i => (g.stage i).isSettled) (by
    simp [AllSettled, TaskStage.isSettled_iff])

/-- Cancel every task that is not done. -/
def abort (g : TaskGroup ι σ ε) : TaskGroup ι σ ε :=
  { g with stage := fun i => (g.stage i).cancel, aborting := true }

/-- The first failure aborts the group, and requests that its parent be cancelled. -/
def fail (g : TaskGroup ι σ ε) (e : ε) : TaskGroup ι σ ε :=
  let g := { g with errors := g.errors ++ [e] }
  if g.aborting || g.parentCancelRequested then g
  else
    let g := g.abort
    let (parent, waiter) := g.parent.cancelWaiting none g.waiter
    { g with parentCancelRequested := true, parent, waiter }

/-- Once its last task is settled, the parent is woken. -/
def afterSettled (g : TaskGroup ι σ ε) (members : List ι) : TaskGroup ι σ ε :=
  if g.AllSettled members then { g with waiter := g.waiter.forward .returned } else g

/-- The group takes its own request back; the last one that is taken back is forgotten. -/
def uncancel (g : TaskGroup ι σ ε) : TaskGroup ι σ ε :=
  if !g.parentCancelRequested then g
  else if g.parent.cancelling = 1 then
    { g with parent := ⟨0, false, none⟩, propagate := false }
  else { g with parent := { g.parent with cancelling := g.parent.cancelling - 1 } }

/-- The end of the block, once no task is left. -/
def exit (g : TaskGroup ι σ ε) : TaskGroup ι σ ε :=
  let g := g.uncancel
  if g.errors.isEmpty then
    { g with exited := some (if g.propagate then .cancelled else .returned) }
  else
    let parent :=
      if g.parent.cancelling = 0 then g.parent else { g.parent with mustCancel := true }
    { g with parent, exited := some (.raised g.errors) }

/-- The parent goes on after its wait: it waits again while there are tasks. -/
def resume (g : TaskGroup ι σ ε) (members : List ι) (parent : CancelState Unit) :
    Resumption Unit ε → TaskGroup ι σ ε := fun found =>
  let g := { g with parent }
  let g := match found with
    | .cancelled _ _ => if g.aborting then g else { g.abort with propagate := true }
    | _ => g
  if g.AllSettled members then g.exit
  else
    let (parent, waiter) := g.parent.suspend
    { g with parent, waiter }

variable {members : List ι} {g g' : TaskGroup ι σ ε}

/-- While the parent waits, the only request to cancel it is the group's own. -/
structure Waiting (members : List ι) (g : TaskGroup ι σ ε) : Prop where
  requested : g.parentCancelRequested = g.aborting
  counted : g.parent.cancelling = if g.aborting then 1 else 0
  calm : g.aborting = false → g.parent.mustCancel = false ∧ ∀ m r, g.waiter ≠ .cancelled m r
  propagate : g.propagate = false
  woken : g.AllSettled members → g.waiter ≠ .pending

/-- The block is left with no cancellation, and with none left behind. -/
structure Left (members : List ι) (g : TaskGroup ι σ ε) (exit : GroupExit ε) : Prop where
  settled : g.AllSettled members
  exit_ne : exit ≠ .cancelled
  uncancelled : g.parent.cancelling = 0 ∧ g.parent.mustCancel = false

/-- The state of a group whose parent nobody else cancels. -/
structure Undisturbed (members : List ι) (g : TaskGroup ι σ ε) : Prop where
  waiting : g.exited = none → Waiting members g
  left : ∀ x, g.exited = some x → Left members g x

section Parent

theorem start_undisturbed (hne : members ≠ []) (store : σ) :
    (start store : TaskGroup ι σ ε).Undisturbed members := by
  obtain ⟨i, hm⟩ := List.exists_mem_of_ne_nil members hne
  constructor
  · intro _
    refine ⟨rfl, rfl, fun _ => ⟨rfl, fun _ _ => nofun⟩, rfl, fun h => ?_⟩
    exact absurd (h i hm) nofun
  · exact nofun

theorem Undisturbed.exited_eq_none (h : g.Undisturbed members) (hm : i ∈ members)
    (hs : g.stage i ≠ .settled) : g.exited = none := by
  cases he : g.exited with
  | none => rfl
  | some x => exact absurd ((h.left x he).settled i hm) hs

theorem Waiting.fail (h : g.Waiting members) (e : ε) : (g.fail e).Waiting members := by
  cases ha : g.aborting with
  | true =>
    have hf : g.fail e = { g with errors := g.errors ++ [e] } := by
      simp [TaskGroup.fail, ha]
    rw [hf]
    exact ⟨h.requested, h.counted, h.calm, h.propagate, h.woken⟩
  | false =>
    have hr := h.requested
    have hc := h.counted
    rw [ha] at hr hc
    have hf : g.fail e = { g with
        errors := g.errors ++ [e], stage := fun i => (g.stage i).cancel, aborting := true
        parentCancelRequested := true, parent := (g.parent.cancelWaiting none g.waiter).1
        waiter := (g.parent.cancelWaiting none g.waiter).2 } := by
      simp [TaskGroup.fail, abort, ha, hr]
    rw [hf]
    refine ⟨rfl, ?_, nofun, h.propagate, fun _ => ?_⟩
    · change (g.parent.cancelWaiting none g.waiter).1.cancelling = 1
      rw [CancelState.cancelWaiting_cancelling, hc]
      rfl
    · change (g.parent.cancelWaiting none g.waiter).2 ≠ _
      cases g.waiter <;> exact nofun

theorem resume_mustCancel {s s' : CancelState Unit} {waiter : Waiter Unit ε}
    {found : Resumption Unit ε} (h : s.resume waiter = some (s', found)) :
    s'.mustCancel = false := by
  cases waiter with
  | pending => exact nomatch h
  | returned | raised | cancelled => cases h; rfl

@[simp] theorem fail_exited (g : TaskGroup ι σ ε) (e : ε) : (g.fail e).exited = g.exited := by
  rw [fail]
  split
  · rfl
  · rfl

/-- What the parent finds when it is woken is not a request from outside. -/
theorem Waiting.resume_eq (h : g.Waiting members) {p : CancelState Unit}
    {found : Resumption Unit ε} (hr : g.parent.resume g.waiter = some (p, found)) :
    g.resume members p found = if g.AllSettled members then ({ g with parent := p }).exit
      else { g with parent := p, waiter := .pending } := by
  have hmust := resume_mustCancel hr
  have hsuspend : (p.suspend : CancelState Unit × Waiter Unit ε) = (p, .pending) := by
    rw [CancelState.suspend, hmust]
    rfl
  have hfound : g.aborting = true ∨ ∀ m r, found ≠ .cancelled m r := by
    cases ha : g.aborting with
    | true => exact .inl rfl
    | false =>
      right
      obtain ⟨hm, hw⟩ := h.calm ha
      intro m r hf
      subst hf
      cases hwait : g.waiter with
      | pending => rw [hwait] at hr; cases hr
      | returned | raised =>
        rw [hwait, CancelState.resume, hm] at hr
        cases hr
      | cancelled m r => exact hw m r hwait
  cases found with
  | value | error e =>
    simp only [resume, hsuspend]
    rfl
  | cancelled m r =>
    rcases hfound with ha | hf
    · simp only [resume, ha, if_true, hsuspend]
      rfl
    · exact absurd rfl (hf m r)

@[simp] theorem exit_stage (g : TaskGroup ι σ ε) : g.exit.stage = g.stage := by
  have hu : g.uncancel.stage = g.stage := by
    rw [uncancel]
    split
    · rfl
    · split <;> rfl
  simp only [exit]
  split <;> exact hu

@[simp] theorem exit_store (g : TaskGroup ι σ ε) : g.exit.store = g.store := by
  have hu : g.uncancel.store = g.store := by
    rw [uncancel]
    split
    · rfl
    · split <;> rfl
  simp only [exit]
  split <;> exact hu

theorem Waiting.exit (h : g.Waiting members) (hs : g.AllSettled members)
    {p : CancelState Unit} (hc : p.cancelling = g.parent.cancelling) (hm : p.mustCancel = false) :
    ∃ x, ({ g with parent := p }).exit.exited = some x ∧
      Left members ({ g with parent := p }).exit x := by
  have hcount := hc.trans h.counted
  have hreq := h.requested
  have hstage := exit_stage { g with parent := p }
  have hsettled : ({ g with parent := p }).exit.AllSettled members := by
    rw [AllSettled, hstage]
    exact hs
  -- The request of the group is taken back, and nothing else is due.
  have hparent : ({ g with parent := p }).exit.parent.cancelling = 0 ∧
      ({ g with parent := p }).exit.parent.mustCancel = false ∧
      ({ g with parent := p }).exit.exited =
        some (if g.errors.isEmpty then .returned else .raised g.errors) := by
    by_cases ha : g.aborting = true
    · rw [if_pos ha] at hcount
      rw [ha] at hreq
      by_cases he : g.errors.isEmpty = true <;> simp [TaskGroup.exit, uncancel, hreq, hcount, he]
    · rw [if_neg ha] at hcount
      rw [Bool.not_eq_true] at ha
      rw [ha] at hreq
      by_cases he : g.errors.isEmpty = true <;>
        simp [TaskGroup.exit, uncancel, hreq, hcount, he, hm, h.propagate]
  refine ⟨_, hparent.2.2, hsettled, ?_, hparent.1, hparent.2.1⟩
  split <;> exact nofun

@[simp] theorem afterSettled_stage (g : TaskGroup ι σ ε) :
    (g.afterSettled members).stage = g.stage := by
  rw [afterSettled]
  split <;> rfl

@[simp] theorem afterSettled_store (g : TaskGroup ι σ ε) :
    (g.afterSettled members).store = g.store := by
  rw [afterSettled]
  split <;> rfl

@[simp] theorem fail_store (g : TaskGroup ι σ ε) (e : ε) : (g.fail e).store = g.store := by
  rw [fail]
  split <;> rfl

theorem fail_stage (g : TaskGroup ι σ ε) (e : ε) (j : ι) :
    (g.fail e).stage j = g.stage j ∨
      g.aborting = false ∧ (g.fail e).aborting = true ∧ ∃ b, g.stage j = .created b := by
  rw [fail]
  dsimp only
  split
  · exact .inl rfl
  · rename_i ha
    rw [Bool.not_eq_true, Bool.or_eq_false_iff] at ha
    cases hs : g.stage j with
    | created b => exact .inr ⟨ha.1, rfl, b, rfl⟩
    | suspended | done | settled =>
      left
      change (g.stage j).cancel = _
      rw [hs]
      rfl

end Parent

section Steps

variable [DecidableEq ι]

def setStage (g : TaskGroup ι σ ε) (i : ι) (stage : TaskStage ε) : TaskGroup ι σ ε :=
  { g with stage := Function.update g.stage i stage }

/-- The callback of a task that is done. -/
def settle (g : TaskGroup ι σ ε) (members : List ι) (i : ι)
    (outcome : TaskOutcome ε) : TaskGroup ι σ ε :=
  let g := (g.setStage i .settled).afterSettled members
  match outcome with
  | .raised e => g.fail e
  | _ => g

/-- One step of the event loop: of a task, of the callback of one, or of the parent. -/
inductive Step (members : List ι) (body : TaskBody ι σ ε) :
    TaskGroup ι σ ε → TaskGroup ι σ ε → Prop
  | first {g : TaskGroup ι σ ε} {store' : σ} (hm : i ∈ members) (hs : g.stage i = .created false)
      (hb : body i true g.store outcome store') :
      Step members body g { g.setStage i (.afterStep outcome) with store := store' }
  | unstarted {g : TaskGroup ι σ ε} (hm : i ∈ members) (hs : g.stage i = .created true) :
      Step members body g (g.setStage i (.done .cancelled))
  | later {g : TaskGroup ι σ ε} {store' : σ} (hm : i ∈ members) (hs : g.stage i = .suspended)
      (hb : body i false g.store outcome store') :
      Step members body g { g.setStage i (.afterStep outcome) with store := store' }
  | settle {g : TaskGroup ι σ ε} (hm : i ∈ members) (hs : g.stage i = .done outcome) :
      Step members body g (g.settle members i outcome)
  | resume {g : TaskGroup ι σ ε} (he : g.exited = none)
      (hr : g.parent.resume g.waiter = some (p, found)) :
      Step members body g (g.resume members p found)

variable {body : TaskBody ι σ ε}

/-- No task's failure is processed before every task has made its first step. -/
def Orderly (members : List ι) (g g' : TaskGroup ι σ ε) : Prop :=
  g.aborting = false → g'.aborting = true → ∀ i ∈ members, ∀ b, g.stage i ≠ .created b

/-- The runs of a group whose tasks all begin before one is cancelled. -/
def Runs (members : List ι) (body : TaskBody ι σ ε) : TaskGroup ι σ ε → TaskGroup ι σ ε → Prop :=
  Relation.ReflTransGen fun g g' => Step members body g g' ∧ Orderly members g g'

/-- Every member has begun when one is cancelled. -/
structure Begun (members : List ι) (g : TaskGroup ι σ ε) : Prop where
  uncancelled : ∀ i ∈ members, g.stage i ≠ .created true
  begun : g.aborting = true → ∀ i ∈ members, g.stage i ≠ .created false

theorem Waiting.setStage (h : g.Waiting members) (hm : i ∈ members) {stage : TaskStage ε}
    (hstage : stage ≠ .settled) (store' : σ) :
    ({ g.setStage i stage with store := store' } : TaskGroup ι σ ε).Waiting members where
  requested := h.requested
  counted := h.counted
  calm := h.calm
  propagate := h.propagate
  woken := by
    intro hall
    have hself : (g.setStage i stage).stage i = stage := Function.update_self ..
    exact absurd (hself.symm.trans (hall i hm)) hstage

theorem Waiting.settled (h : g.Waiting members) (i : ι) :
    ((g.setStage i .settled).afterSettled members).Waiting members := by
  rw [afterSettled]
  split
  · rename_i hall
    refine ⟨h.requested, h.counted, fun ha => ⟨(h.calm ha).1, ?_⟩, h.propagate, fun _ => ?_⟩
    · intro m r
      have hc := (h.calm ha).2
      change g.waiter.forward .returned ≠ _
      cases hw : g.waiter with
      | cancelled m r => exact absurd hw (hc m r)
      | pending | returned | raised => exact nofun
    · change g.waiter.forward .returned ≠ _
      cases g.waiter <;> exact nofun
  · rename_i hall
    exact ⟨h.requested, h.counted, h.calm, h.propagate, fun h => absurd h hall⟩

@[simp] theorem settle_exited (g : TaskGroup ι σ ε) (i : ι) (outcome : TaskOutcome ε) :
    (g.settle members i outcome).exited = g.exited := by
  have ha : ((g.setStage i .settled).afterSettled members).exited = g.exited := by
    rw [afterSettled]
    split <;> rfl
  cases outcome with
  | raised e => exact (fail_exited _ e).trans ha
  | returned | cancelled => exact ha

theorem Waiting.settle (h : g.Waiting members) (i : ι) (outcome : TaskOutcome ε) :
    (g.settle members i outcome).Waiting members := by
  cases outcome with
  | raised e => exact (h.settled i).fail e
  | returned | cancelled => exact h.settled i

theorem Undisturbed.step (h : g.Undisturbed members) (hs : Step members body g g') :
    g'.Undisturbed members := by
  cases hs with
  | @first i outcome _ store' hm hstage _ | @later i outcome _ store' hm hstage _ =>
    have he := h.exited_eq_none hm (by rw [hstage]; exact nofun)
    refine ⟨fun _ => (h.waiting he).setStage hm ?_ store', fun x hx => ?_⟩
    · cases outcome <;> exact nofun
    · exact nomatch he.symm.trans hx
  | @unstarted i _ hm hstage =>
    have he := h.exited_eq_none hm (by rw [hstage]; exact nofun)
    have hdone : (TaskStage.done TaskOutcome.cancelled : TaskStage ε) ≠ .settled := nofun
    refine ⟨fun _ => (h.waiting he).setStage hm hdone g.store, fun x hx => ?_⟩
    exact nomatch he.symm.trans hx
  | @settle i outcome _ hm hstage =>
    have he := h.exited_eq_none hm (by rw [hstage]; exact nofun)
    refine ⟨fun _ => (h.waiting he).settle i outcome, fun x hx => ?_⟩
    rw [settle_exited, he] at hx
    exact nomatch hx
  | resume he hr =>
    have hw := h.waiting he
    rw [hw.resume_eq hr]
    split
    · rename_i hall
      obtain ⟨x, hx, hleft⟩ := hw.exit hall (CancelState.resume_cancelling hr)
        (resume_mustCancel hr)
      constructor
      · exact fun hn => nomatch hn.symm.trans hx
      · intro y hy
        cases hx.symm.trans hy
        exact hleft
    · rename_i hall
      constructor
      · intro _
        exact ⟨hw.requested, (CancelState.resume_cancelling hr).trans hw.counted,
          fun _ => ⟨resume_mustCancel hr, fun _ _ => nofun⟩, hw.propagate, fun hs => absurd hs hall⟩
      · exact fun x hx => nomatch he.symm.trans hx

/-- What a step does to the stages and the store of a group whose tasks have begun when one is
cancelled: a body makes a step, or a task that is done is settled, or the parent goes on. -/
inductive Moves (members : List ι) (body : TaskBody ι σ ε) (g g' : TaskGroup ι σ ε) : Prop
  | body (i : ι) (outcome : Option (TaskOutcome ε)) (hm : i ∈ members)
      (hs : (g.stage i).isRunning = true) (hb : ∃ first, body i first g.store outcome g'.store)
      (hstage : ∀ j ∈ members, g'.stage j = if j = i then .afterStep outcome else g.stage j)
  | settle (i : ι) (outcome : TaskOutcome ε) (hm : i ∈ members) (hs : g.stage i = .done outcome)
      (hstore : g'.store = g.store)
      (hstage : ∀ j ∈ members, g'.stage j = if j = i then .settled else g.stage j)
  | parent (hstore : g'.store = g.store) (hstage : ∀ j ∈ members, g'.stage j = g.stage j)

theorem setStage_stage (g : TaskGroup ι σ ε) (i j : ι) (stage : TaskStage ε) :
    (g.setStage i stage).stage j = if j = i then stage else g.stage j :=
  Function.update_apply ..

theorem settle_store (g : TaskGroup ι σ ε) (i : ι) (outcome : TaskOutcome ε) :
    (g.settle members i outcome).store = g.store := by
  cases outcome with
  | raised e => exact (fail_store _ e).trans (afterSettled_store _)
  | returned | cancelled => exact afterSettled_store _

theorem settle_stage (members : List ι) (g : TaskGroup ι σ ε) (i j : ι) (outcome : TaskOutcome ε) :
    (g.settle members i outcome).stage j = (if j = i then .settled else g.stage j) ∨
      g.aborting = false ∧ (g.settle members i outcome).aborting = true ∧
        ∃ b, g.stage j = .created b := by
  have hstage : ((g.setStage i .settled).afterSettled members).stage j =
      if j = i then .settled else g.stage j := by
    rw [afterSettled_stage, setStage_stage]
  have haborting : ((g.setStage i .settled).afterSettled members).aborting = g.aborting := by
    rw [afterSettled]
    split <;> rfl
  cases outcome with
  | returned | cancelled => exact .inl hstage
  | raised e =>
    rcases fail_stage ((g.setStage i .settled).afterSettled members) e j with h | ⟨ha, ha', b, hb⟩
    · exact .inl (h.trans hstage)
    · rw [hstage] at hb
      split at hb
      · cases hb
      · exact .inr ⟨haborting ▸ ha, ha', b, hb⟩

theorem moves_of_step (h : g.Undisturbed members) (hb : g.Begun members)
    (hs : Step members body g g') (ho : Orderly members g g') : Moves members body g g' := by
  cases hs with
  | @first i outcome _ store' hm hstage hbody =>
    exact .body i outcome hm (by rw [hstage]; rfl) ⟨true, hbody⟩ fun j _ => setStage_stage g i j _
  | @later i outcome _ store' hm hstage hbody =>
    exact .body i outcome hm (by rw [hstage]; rfl) ⟨false, hbody⟩ fun j _ => setStage_stage g i j _
  | @unstarted i _ hm hstage => exact absurd hstage (hb.uncancelled i hm)
  | @settle i outcome _ hm hstage =>
    refine .settle i outcome hm hstage (settle_store g i outcome) fun j hj => ?_
    rcases settle_stage members g i j outcome with hset | ⟨ha, ha', b, hcreated⟩
    · exact hset
    · exact absurd hcreated (ho ha ha' j hj b)
  | resume he hr =>
    have hw := h.waiting he
    have heq := hw.resume_eq hr
    rw [heq]
    split
    · exact .parent (exit_store _) fun j _ => congrFun (exit_stage _) j
    · exact .parent rfl fun j _ => rfl

theorem Moves.created (h : Moves members body g g') (hj : j ∈ members)
    (hs : g'.stage j = .created b) : g.stage j = .created b := by
  cases h with
  | body i outcome _ _ _ hstage =>
    rw [hstage j hj] at hs
    split at hs
    · cases outcome <;> cases hs
    · exact hs
  | settle i outcome _ _ _ hstage =>
    rw [hstage j hj] at hs
    split at hs
    · cases hs
    · exact hs
  | parent _ hstage => exact (hstage j hj).symm.trans hs

theorem Begun.step (h : g.Begun members) (hm : Moves members body g g')
    (ho : Orderly members g g') : g'.Begun members := by
  constructor
  · exact fun i hi hs => h.uncancelled i hi (hm.created hi hs)
  · intro ha' i hi hs
    cases ha : g.aborting with
    | true => exact h.begun ha i hi (hm.created hi hs)
    | false => exact ho ha ha' i hi false (hm.created hi hs)

omit [DecidableEq ι] in
theorem start_begun (store : σ) : (start store : TaskGroup ι σ ε).Begun members :=
  ⟨fun _ _ => nofun, nofun⟩

/-- What a run of the group keeps. -/
theorem Runs.keeps {F : TaskGroup ι σ ε → Prop} (hr : Runs members body g g')
    (hu : g.Undisturbed members) (hb : g.Begun members) (hF : F g)
    (hstep : ∀ g g', F g → Moves members body g g' → F g') :
    g'.Undisturbed members ∧ g'.Begun members ∧ F g' := by
  induction hr with
  | refl => exact ⟨hu, hb, hF⟩
  | tail _ hs ih =>
    obtain ⟨hu, hb, hF⟩ := ih
    have hm := moves_of_step hu hb hs.1 hs.2
    exact ⟨hu.step hs.1, hb.step hm hs.2, hstep _ _ hF hm⟩

end Steps

section Ending

/-- The bodies of all tasks have ended. -/
def Ended (members : List ι) (g : TaskGroup ι σ ε) : Prop :=
  ∀ i ∈ members, (g.stage i).isRunning = false

/-- A bound on the steps that are left when the bodies of all tasks have ended. -/
def remaining (members : List ι) (g : TaskGroup ι σ ε) : Nat :=
  2 * members.countP (fun i => !(g.stage i).isSettled) +
    match g.exited, g.waiter with
    | some _, _ => 0
    | none, .pending => 1
    | none, _ => 2

theorem allSettled_of_ended (h : g.Ended members)
    (hd : ∀ i ∈ members, ∀ outcome, g.stage i ≠ .done outcome) : g.AllSettled members := by
  intro i hi
  have hr := h i hi
  cases hs : g.stage i with
  | created b => rw [hs] at hr; cases hr
  | suspended => rw [hs] at hr; cases hr
  | done outcome => exact absurd hs (hd i hi outcome)
  | settled => rfl

theorem countP_lt {l : List ι} {p q : ι → Bool} (h : ∀ i ∈ l, p i = true → q i = true)
    (hi : i ∈ l) (hp : p i = false) (hq : q i = true) : l.countP p < l.countP q := by
  induction l with
  | nil => cases hi
  | cons j l ih =>
    have hle := List.countP_mono_left fun k hk => h k (List.mem_cons_of_mem j hk)
    rw [List.countP_cons, List.countP_cons]
    rcases List.mem_cons.1 hi with rfl | hi
    · rw [hp, hq]
      exact Nat.lt_succ_of_le hle
    · have hlt := ih (fun k hk => h k (List.mem_cons_of_mem j hk)) hi
      have hj := h j List.mem_cons_self
      cases hpj : p j with
      | false => simp; omega
      | true => rw [hj hpj]; simpa using hlt

/-- With no body left to end, no task is left to begin. -/
theorem Ended.orderly (h : g.Ended members) : Orderly members g g' := by
  intro _ _ i hi b hs
  have hr := h i hi
  rw [hs] at hr
  cases hr

theorem remaining_le (members : List ι) (g : TaskGroup ι σ ε) :
    g.remaining members ≤ 2 * members.countP (fun i => !(g.stage i).isSettled) + 2 := by
  rw [remaining]
  split <;> omega

theorem le_remaining (members : List ι) (he : g.exited = none) :
    2 * members.countP (fun i => !(g.stage i).isSettled) + 1 ≤ g.remaining members := by
  rw [remaining, he]
  cases g.waiter <;> simp

variable [DecidableEq ι] {body : TaskBody ι σ ε}

theorem Ended.moves (h : g.Ended members) (hm : Moves members body g g') : g'.Ended members := by
  intro j hj
  cases hm with
  | body i _ hm hs => rw [h i hm] at hs; cases hs
  | settle i _ _ _ _ hstage =>
    rw [hstage j hj]
    split
    · rfl
    · exact h j hj
  | parent _ hstage => rw [hstage j hj]; exact h j hj

theorem Ended.exists_step (h : g.Ended members) (hu : g.Undisturbed members)
    (he : ¬g.exited.isSome) : ∃ g', Step members body g g' := by
  rw [Option.not_isSome_iff_eq_none] at he
  by_cases hd : ∃ i ∈ members, ∃ outcome, g.stage i = .done outcome
  · obtain ⟨i, hi, outcome, hs⟩ := hd
    exact ⟨_, .settle hi hs⟩
  · have hall : g.AllSettled members :=
      allSettled_of_ended h fun i hi outcome hs => hd ⟨i, hi, outcome, hs⟩
    have hw := (hu.waiting he).woken hall
    cases hwait : g.waiter with
    | pending => exact absurd hwait hw
    | returned => exact ⟨_, .resume he (by rw [hwait]; rfl)⟩
    | raised e => exact ⟨_, .resume he (by rw [hwait]; rfl)⟩
    | cancelled m r => exact ⟨_, .resume he (by rw [hwait]; rfl)⟩

theorem Ended.remaining_lt (h : g.Ended members) (hu : g.Undisturbed members)
    (he : ¬g.exited.isSome) (hs : Step members body g g') :
    g'.remaining members < g.remaining members := by
  rw [Option.not_isSome_iff_eq_none] at he
  cases hs with
  | first hm hstage | unstarted hm hstage | later hm hstage =>
    have hr := h _ hm
    rw [hstage] at hr
    cases hr
  | @settle i outcome _ hm hstage =>
    have hset : ∀ j ∈ members, (g.settle members i outcome).stage j =
        if j = i then .settled else g.stage j := by
      intro j hj
      rcases settle_stage members g i j outcome with hset | ⟨-, -, b, hb⟩
      · exact hset
      · have hr := h j hj
        rw [hb] at hr
        cases hr
    have hlt : members.countP (fun j => !((g.settle members i outcome).stage j).isSettled) <
        members.countP (fun j => !(g.stage j).isSettled) := by
      apply countP_lt _ hm
      · rw [hset i hm, if_pos rfl]
        rfl
      · rw [hstage]
        rfl
      · intro j hj hp
        rw [hset j hj] at hp
        split at hp
        · cases hp
        · exact hp
    have hle := remaining_le members (g.settle members i outcome)
    have hge := le_remaining members he
    omega
  | @resume p found _ _ hr =>
    rw [(hu.waiting he).resume_eq hr]
    split
    · rename_i hall
      obtain ⟨x, hx, -⟩ := (hu.waiting he).exit hall (CancelState.resume_cancelling hr)
        (resume_mustCancel hr)
      have hexit : ({ g with parent := p }).exit.remaining members =
          2 * members.countP (fun j => !(g.stage j).isSettled) := by
        rw [remaining, hx, exit_stage]
        rfl
      have hge := le_remaining members he
      omega
    · cases hw : g.waiter with
      | pending => rw [hw] at hr; exact nomatch hr
      | returned | raised | cancelled =>
        rw [remaining, remaining, he, hw]
        exact Nat.lt_succ_self _

theorem Ended.eventually_exits (h : g.Ended members) (hu : g.Undisturbed members)
    (hb : g.Begun members) {F : TaskGroup ι σ ε → Prop} (hF : F g)
    (hstep : ∀ g g', F g → g.Undisturbed members → Step members body g g' →
      Moves members body g g' → F g') :
    Eventually (Step members body)
      (fun g' => g'.exited.isSome ∧ g'.Undisturbed members ∧ F g') g := by
  have hend := @eventually_of_measure _ (Step members body) (fun g => g.exited.isSome)
    (fun g => g.Ended members ∧ g.Undisturbed members ∧ g.Begun members ∧ F g) _
    (remaining members)
    (fun g g' hI hs => by
      obtain ⟨he, hu, hb, hF⟩ := hI
      have hm := moves_of_step hu hb hs he.orderly
      exact ⟨he.moves hm, hu.step hs, hb.step hm he.orderly, hstep g g' hF hu hs hm⟩)
    (fun g hI hx => hI.1.exists_step hI.2.1 hx)
    (fun g g' hI hx hs => hI.1.remaining_lt hI.2.1 hx hs) ⟨h, hu, hb, hF⟩
  exact hend.mono fun g' hg => ⟨hg.1, hg.2.2.1, hg.2.2.2.2⟩

end Ending

end TaskGroup

end Library
