import GoalRouter.Library.Program
import GoalRouter.Library.TaskGroup

namespace Library
set_option autoImplicit true

/-- What a task fails with, if it does. -/
def TaskOutcome.error? : TaskOutcome ε → Option ε
  | .raised e => some e
  | _ => none

namespace TaskGroup

section Failing

variable {ι σ ε : Type} {members : List ι} {g g' : TaskGroup ι σ ε} {body : TaskBody ι σ ε}
  {failure : σ → ι → Option ε}

/-- The store shows what its tasks have failed with, and no task shows a failure of another. -/
structure Shows (body : TaskBody ι σ ε) (failure : σ → ι → Option ε) : Prop where
  own : ∀ {i first s t s'}, body i first s t s' → failure s' i = t.bind TaskOutcome.error?
  other : ∀ {i j first s t s'}, body i first s t s' → j ≠ i → failure s' j = failure s j

/-- The group has the errors that its store shows, once their tasks are settled. -/
structure Accounted (failure : σ → ι → Option ε) (members : List ι) (g : TaskGroup ι σ ε) :
    Prop where
  running : ∀ i ∈ members, (g.stage i).isRunning = true → failure g.store i = none
  done : ∀ i ∈ members, ∀ t, g.stage i = .done t → failure g.store i = t.error?
  settled : ∀ i ∈ members, g.stage i = .settled → ∀ e, failure g.store i = some e → e ∈ g.errors
  shown : ∀ e ∈ g.errors, ∃ i ∈ members, failure g.store i = some e
  returned : g.exited = some .returned → g.errors = []
  raised : ∀ errors, g.exited = some (.raised errors) → errors = g.errors ∧ errors ≠ []

theorem start_accounted {store : σ} (h : ∀ i ∈ members, failure store i = none) :
    (start store : TaskGroup ι σ ε).Accounted failure members where
  running := fun i hi _ => h i hi
  done := fun _ _ _ => nofun
  settled := fun _ _ => nofun
  shown := fun _ => nofun
  returned := nofun
  raised := fun _ => nofun

theorem fail_errors (g : TaskGroup ι σ ε) (e : ε) : (g.fail e).errors = g.errors ++ [e] := by
  rw [fail]
  split <;> rfl

theorem afterSettled_errors (g : TaskGroup ι σ ε) : (g.afterSettled members).errors = g.errors := by
  rw [afterSettled]
  split <;> rfl

theorem uncancel_errors (g : TaskGroup ι σ ε) : g.uncancel.errors = g.errors := by
  rw [uncancel]
  split
  · rfl
  · split <;> rfl

theorem exit_errors (g : TaskGroup ι σ ε) : g.exit.errors = g.errors := by
  simp only [exit]
  split <;> exact uncancel_errors g

theorem exit_exited (g : TaskGroup ι σ ε) :
    (g.errors = [] ∧ ∀ errors, g.exit.exited ≠ some (.raised errors)) ∨
      g.errors ≠ [] ∧ g.exit.exited = some (.raised g.errors) := by
  have hu := uncancel_errors g
  by_cases he : g.errors = []
  · left
    refine ⟨he, fun errors => ?_⟩
    rw [he] at hu
    simp only [exit, hu, List.isEmpty_nil, if_true]
    intro he
    split at he
    · cases he
    · cases he
  · right
    refine ⟨he, ?_⟩
    have hempty : g.errors.isEmpty = false := by rwa [List.isEmpty_eq_false_iff]
    simp [exit, hu, hempty]

theorem Accounted.exitStep (h : g.Accounted failure members) :
    g.exit.Accounted failure members := by
  have hstage := exit_stage g
  have hstore := exit_store g
  have herrors := exit_errors g
  have hexit := exit_exited g
  refine ⟨?_, ?_, ?_, ?_, fun hx => ?_, fun errors hx => ?_⟩
  · rw [hstage, hstore]
    exact h.running
  · rw [hstage, hstore]
    exact h.done
  · rw [hstage, hstore, herrors]
    exact h.settled
  · rw [hstore, herrors]
    exact h.shown
  · rw [herrors]
    obtain ⟨hnil, -⟩ | ⟨-, hraised⟩ := hexit
    · exact hnil
    · rw [hx] at hraised
      cases hraised
  · rw [herrors]
    obtain ⟨-, hnot⟩ | ⟨hne, hraised⟩ := hexit
    · exact absurd hx (hnot errors)
    · rw [hx] at hraised
      cases hraised
      exact ⟨rfl, hne⟩

theorem isRunning_afterStep {t : Option (TaskOutcome ε)} :
    (TaskStage.afterStep t).isRunning = true ↔ t = none := by
  cases t <;> simp [TaskStage.afterStep, TaskStage.isRunning]

variable [DecidableEq ι]

theorem settle_errors (members : List ι) (g : TaskGroup ι σ ε) (i : ι)
    (outcome : TaskOutcome ε) :
    (g.settle members i outcome).errors = g.errors ++ outcome.error?.toList := by
  cases outcome with
  | raised e => exact (fail_errors _ e).trans (congrArg (· ++ [e]) (afterSettled_errors _))
  | returned | cancelled => exact (afterSettled_errors _).trans (List.append_nil _).symm

/-- A task that makes a step shows how it went. -/
theorem Accounted.bodyStep (h : g.Accounted failure members) (hb : Shows body failure)
    {t : Option (TaskOutcome ε)} {store' : σ} (hm : i ∈ members)
    (hr : (g.stage i).isRunning = true) (hbody : body i first g.store t store') :
    ({ g.setStage i (.afterStep t) with store := store' } : TaskGroup ι σ ε).Accounted failure
      members := by
  have hstage (j : ι) : (g.setStage i (.afterStep t)).stage j =
      if j = i then .afterStep t else g.stage j := setStage_stage g i j _
  have hnone : failure g.store i = none := h.running i hm hr
  have hkept (j : ι) (e : ε) (hj : failure g.store j = some e) : failure store' j = some e := by
    rw [hb.other hbody]
    · exact hj
    · rintro rfl
      rw [hnone] at hj
      cases hj
  constructor
  · intro j hj hrun
    change ((g.setStage i (.afterStep t)).stage j).isRunning = true at hrun
    rw [hstage] at hrun
    split at hrun
    · rename_i he
      subst he
      rw [isRunning_afterStep] at hrun
      subst hrun
      exact hb.own hbody
    · rename_i he
      exact (hb.other hbody he).trans (h.running j hj hrun)
  · intro j hj outcome hdone
    change (g.setStage i (.afterStep t)).stage j = _ at hdone
    rw [hstage] at hdone
    split at hdone
    · rename_i he
      subst he
      cases t with
      | none => cases hdone
      | some outcome' =>
        cases hdone
        exact hb.own hbody
    · rename_i he
      exact (hb.other hbody he).trans (h.done j hj outcome hdone)
  · intro j hj hsettled e he
    change (g.setStage i (.afterStep t)).stage j = _ at hsettled
    rw [hstage] at hsettled
    split at hsettled
    · cases t <;> cases hsettled
    · rename_i hne
      exact h.settled j hj hsettled e ((hb.other hbody hne).symm.trans he)
  · intro e he
    obtain ⟨j, hj, hf⟩ := h.shown e he
    exact ⟨j, hj, hkept j e hf⟩
  · exact h.returned
  · exact h.raised

/-- A task that is cancelled before its first step shows no failure. -/
theorem Accounted.unstartedStep (h : g.Accounted failure members) (hm : i ∈ members)
    (hstage : g.stage i = .created true) :
    (g.setStage i (.done .cancelled)).Accounted failure members := by
  have hset (j : ι) := setStage_stage g i j (.done .cancelled)
  have hnone : failure g.store i = none := h.running i hm (by rw [hstage]; rfl)
  refine ⟨fun j hj hrun => ?_, fun j hj t hdone => ?_, fun j hj hsettled => ?_, h.shown,
    h.returned, h.raised⟩
  · rw [hset] at hrun
    split at hrun
    · cases hrun
    · exact h.running j hj hrun
  · rw [hset] at hdone
    split at hdone
    · rename_i he
      subst he
      cases hdone
      exact hnone
    · exact h.done j hj t hdone
  · rw [hset] at hsettled
    split at hsettled
    · cases hsettled
    · exact h.settled j hj hsettled

/-- A task that is settled adds the failure that it shows to the errors. -/
theorem Accounted.settleStep (h : g.Accounted failure members) (hm : i ∈ members)
    (hstage : g.stage i = .done outcome) (hexited : g.exited = none)
    (hset : ∀ j ∈ members, (g.settle members i outcome).stage j =
      if j = i then .settled else g.stage j) :
    (g.settle members i outcome).Accounted failure members := by
  have hstore : (g.settle members i outcome).store = g.store := settle_store g i outcome
  have herrors := settle_errors members g i outcome
  have hown : failure g.store i = outcome.error? := h.done i hm outcome hstage
  constructor
  · intro j hj hrun
    rw [hset j hj] at hrun
    rw [hstore]
    split at hrun
    · cases hrun
    · exact h.running j hj hrun
  · intro j hj t hdone
    rw [hset j hj] at hdone
    rw [hstore]
    split at hdone
    · cases hdone
    · exact h.done j hj t hdone
  · intro j hj hsettled e hf
    rw [hset j hj] at hsettled
    rw [hstore] at hf
    rw [herrors, List.mem_append]
    split at hsettled
    · rename_i hji
      subst hji
      rw [hown] at hf
      rw [hf]
      exact .inr List.mem_cons_self
    · exact .inl (h.settled j hj hsettled e hf)
  · intro e hmem
    rw [herrors, List.mem_append] at hmem
    rw [hstore]
    rcases hmem with hmem | hmem
    · exact h.shown e hmem
    · exact ⟨i, hm, hown.trans (Option.mem_toList.1 hmem)⟩
  · intro hx
    rw [settle_exited, hexited] at hx
    cases hx
  · intro errors hx
    rw [settle_exited, hexited] at hx
    cases hx

theorem Accounted.step (h : g.Accounted failure members) (hb : Shows body failure)
    (hu : g.Undisturbed members) (hs : Step members body g g') (ho : Orderly members g g') :
    g'.Accounted failure members := by
  cases hs with
  | first hm hstage hbody => exact h.bodyStep hb hm (by rw [hstage]; rfl) hbody
  | later hm hstage hbody => exact h.bodyStep hb hm (by rw [hstage]; rfl) hbody
  | unstarted hm hstage => exact h.unstartedStep hm hstage
  | @settle i outcome _ hm hstage =>
    refine h.settleStep hm hstage (hu.exited_eq_none hm (by rw [hstage]; exact nofun)) ?_
    intro j hj
    rcases settle_stage members g i j outcome with hset | ⟨ha, ha', b, hcreated⟩
    · exact hset
    · exact absurd hcreated (ho ha ha' j hj b)
  | @resume p found _ hex hr =>
    have hp : ({ g with parent := p } : TaskGroup ι σ ε).Accounted failure members :=
      ⟨h.running, h.done, h.settled, h.shown, h.returned, h.raised⟩
    rw [(hu.waiting hex).resume_eq hr]
    split
    · exact hp.exitStep
    · exact ⟨h.running, h.done, h.settled, h.shown, h.returned, h.raised⟩

/-- What the tasks of a group raise is of a kind, and so is what the group is left with. -/
structure Raises (P : ε → Prop) (members : List ι) (g : TaskGroup ι σ ε) : Prop where
  done : ∀ i ∈ members, ∀ e, g.stage i = .done (.raised e) → P e
  errors : ∀ e ∈ g.errors, P e
  exited : ∀ errors, g.exited = some (.raised errors) → ∀ e ∈ errors, P e

variable {P : ε → Prop}

omit [DecidableEq ι] in
theorem fail_done {e : ε} {i : ι} {t : TaskOutcome ε} (h : (g.fail e).stage i = .done t) :
    g.stage i = .done t := by
  rcases fail_stage g e i with hs | ⟨-, -, b, hb⟩
  · exact hs ▸ h
  · rw [fail] at h
    dsimp only at h
    split at h
    · exact h
    · change (g.stage i).cancel = _ at h
      rw [hb] at h
      cases h

theorem settle_done {i j : ι} {outcome t : TaskOutcome ε}
    (h : (g.settle members i outcome).stage j = .done t) : g.stage j = .done t := by
  have hset (hs : ((g.setStage i .settled).afterSettled members).stage j = .done t) :
      g.stage j = .done t := by
    rw [afterSettled_stage, setStage_stage] at hs
    split at hs
    · cases hs
    · exact hs
  cases outcome with
  | raised e => exact hset (fail_done h)
  | returned | cancelled => exact hset h

theorem Raises.step (h : g.Raises P members) (hu : g.Undisturbed members)
    (hb : ∀ {i first s e s'}, body i first s (some (.raised e)) s' → P e)
    (hs : Step members body g g') : g'.Raises P members := by
  cases hs with
  | @first i t _ store' _ _ hbody | @later i t _ store' _ _ hbody =>
    refine ⟨fun j hj e hdone => ?_, h.errors, h.exited⟩
    change (g.setStage i (.afterStep t)).stage j = _ at hdone
    rw [setStage_stage] at hdone
    split at hdone
    · cases t with
      | none => cases hdone
      | some outcome =>
        cases hdone
        exact hb hbody
    · exact h.done j hj e hdone
  | @unstarted i _ _ _ =>
    refine ⟨fun j hj e hdone => ?_, h.errors, h.exited⟩
    rw [setStage_stage] at hdone
    split at hdone
    · cases hdone
    · exact h.done j hj e hdone
  | @settle i outcome _ hm hstage =>
    refine ⟨fun j hj e hdone => h.done j hj e (settle_done hdone), fun e he => ?_,
      fun errors hx => ?_⟩
    · rw [settle_errors, List.mem_append] at he
      rcases he with he | he
      · exact h.errors e he
      · cases outcome with
        | raised e' =>
          cases List.mem_singleton.1 he
          exact h.done i hm e hstage
        | returned | cancelled => cases he
    · rw [settle_exited] at hx
      exact h.exited errors hx
  | @resume p found _ hex hr =>
    rw [(hu.waiting hex).resume_eq hr]
    split
    · refine ⟨?_, ?_, fun errors hx => ?_⟩
      · rw [exit_stage]
        exact h.done
      · rw [exit_errors]
        exact h.errors
      · obtain ⟨-, hnot⟩ | ⟨-, hraised⟩ := exit_exited { g with parent := p }
        · exact absurd hx (hnot errors)
        · rw [hx] at hraised
          cases hraised
          exact h.errors
    · exact ⟨h.done, h.errors, h.exited⟩

theorem Runs.raises {store : σ} (hne : members ≠ [])
    (hb : ∀ {i first s e s'}, body i first s (some (.raised e)) s' → P e)
    (hr : Runs members body (.start store) g) : g.Raises P members := by
  induction hr with
  | refl => exact ⟨fun _ _ _ => nofun, fun _ => nofun, fun _ => nofun⟩
  | tail hr hs ih =>
    obtain ⟨hu, -, -⟩ := Runs.keeps hr (start_undisturbed hne _) (start_begun _) trivial
      fun _ _ _ _ => trivial
    exact ih.step hu hb hs.1

end Failing

section Programs

variable {ι C : Type} {V : C → Type} {E W α : Type}

/-- Tasks that run programs and share nothing: what is left of each program, and its world. -/
abbrev Programs (ι : Type) (V : C → Type) (E W α : Type) := ι → Prog V E α × W

variable [DecidableEq ι]

/-- One step of a task: its program goes on for some calls, then waits in one or ends. -/
inductive Executes (next : Prog.Answers V E W) (isCancelled : E → Bool) :
    TaskBody ι (Programs ι V E W α) E
  | waits (hs : Prog.Steps next (s i).1 (s i).2 (.call c f) w) :
      Executes next isCancelled i first s none (Function.update s i (.call c f, w))
  | returns (hs : Prog.Steps next (s i).1 (s i).2 (.pure a) w) :
      Executes next isCancelled i first s (some .returned) (Function.update s i (.pure a, w))
  | raises (hs : Prog.Steps next (s i).1 (s i).2 (.throw e) w) (hc : isCancelled e = false) :
      Executes next isCancelled i first s (some (.raised e)) (Function.update s i (.throw e, w))
  | cancelled (hs : Prog.Steps next (s i).1 (s i).2 (.throw e) w) (hc : isCancelled e = true) :
      Executes next isCancelled i first s (some .cancelled) (Function.update s i (.throw e, w))

/-- What the program of a task has raised, if that is not a cancellation. -/
def failureOf (isCancelled : E → Bool) (s : Programs ι V E W α) (i : ι) : Option E :=
  match (s i).1 with
  | .throw e => if isCancelled e then none else some e
  | _ => none

variable {next : Prog.Answers V E W} {isCancelled : E → Bool} {members : List ι}
  {store : Programs ι V E W α} {g g' : TaskGroup ι (Programs ι V E W α) E}

theorem executes_other {i j : ι} {s s' : Programs ι V E W α} {t : Option (TaskOutcome E)}
    (h : Executes next isCancelled i first s t s') (hne : j ≠ i) : s' j = s j := by
  cases h <;> rw [Function.update_of_ne hne]

theorem executes_shows :
    Shows (ι := ι) (σ := Programs ι V E W α) (Executes next isCancelled)
      (failureOf isCancelled) where
  own := by
    intro i first s t s' h
    cases h with
    | waits | returns =>
      rw [failureOf, Function.update_self]
      rfl
    | raises _ hc | cancelled _ hc =>
      rw [failureOf, Function.update_self]
      simp only [hc]
      rfl
  other := by
    intro i j first s t s' h hne
    rw [failureOf, failureOf, executes_other h hne]

/-- Every program has come where it is by steps of its own, and has ended if its task has. -/
def Stepped (next : Prog.Answers V E W) (members : List ι) (store : Programs ι V E W α)
    (g : TaskGroup ι (Programs ι V E W α) E) : Prop :=
  ∀ i ∈ members, Prog.Steps next (store i).1 (store i).2 (g.store i).1 (g.store i).2 ∧
    ((g.stage i).isRunning = false → ((g.store i).1.outcome?).isSome)

theorem Stepped.moves (h : Stepped next members store g)
    (hm : Moves members (Executes next isCancelled) g g') : Stepped next members store g' := by
  intro j hj
  cases hm with
  | parent hstore hstage =>
    rw [hstore, hstage j hj]
    exact h j hj
  | settle i outcome hi hs hstore hstage =>
    rw [hstore, hstage j hj]
    by_cases he : j = i
    · subst he
      exact ⟨(h j hj).1, fun _ => (h j hj).2 (by rw [hs]; rfl)⟩
    · rw [if_neg he]
      exact h j hj
  | body i outcome hi hs hb hstage =>
    obtain ⟨first, hb⟩ := hb
    rw [hstage j hj]
    by_cases he : j = i
    · subst he
      rw [if_pos rfl]
      have hsteps := (h j hj).1
      generalize g'.store = store' at hb
      cases hb with
      | waits hown =>
        rw [Function.update_self]
        exact ⟨hsteps.trans hown, nofun⟩
      | returns hown | raises hown _ | cancelled hown _ =>
        rw [Function.update_self]
        exact ⟨hsteps.trans hown, fun _ => rfl⟩
    · rw [if_neg he, executes_other hb he]
      exact h j hj

/-- However the tasks interleave, each has run its own program, and the group has the errors they
raised. -/
theorem Runs.programs (hne : members ≠ [])
    (hstore : ∀ i ∈ members, ((store i).1.outcome?) = none)
    (hr : Runs members (Executes next isCancelled) (.start store) g) :
    Stepped next members store g ∧ g.Undisturbed members ∧
      g.Accounted (failureOf isCancelled) members := by
  have hnone : ∀ i ∈ members, failureOf isCancelled store i = none := by
    intro i hi
    have ho := hstore i hi
    rw [failureOf]
    split
    · rename_i heq
      rw [heq] at ho
      cases ho
    · rfl
  have hstart : Stepped next members store (.start store) := fun _ _ => ⟨.refl, nofun⟩
  obtain ⟨hu, -, hs⟩ := hr.keeps (start_undisturbed hne _) (start_begun _) hstart
    fun _ _ h hm => h.moves hm
  refine ⟨hs, hu, ?_⟩
  clear hu hs
  induction hr with
  | refl => exact start_accounted hnone
  | tail hr hs ih =>
    obtain ⟨hu, -, -⟩ := Runs.keeps hr (start_undisturbed hne _) (start_begun _) hstart
      fun _ _ h hm => h.moves hm
    exact ih.step executes_shows hu hs.1 hs.2

/-- No task ends cancelled before the group has cancelled its tasks. -/
def Requested (members : List ι) (g g' : TaskGroup ι (Programs ι V E W α) E) : Prop :=
  g.aborting = false → ∀ i ∈ members, g'.stage i = .done .cancelled → g.stage i = .done .cancelled

/-- The runs of a group whose tasks nobody else cancels. -/
def OwnRuns (members : List ι) (next : Prog.Answers V E W) (isCancelled : E → Bool) :
    TaskGroup ι (Programs ι V E W α) E → TaskGroup ι (Programs ι V E W α) E → Prop :=
  Relation.ReflTransGen fun g g' => (Step members (Executes next isCancelled) g g' ∧
    Orderly members g g') ∧ Requested members g g'

theorem OwnRuns.runs (h : OwnRuns members next isCancelled g g') :
    Runs members (Executes next isCancelled) g g' := by
  induction h with
  | refl => exact .refl
  | tail _ hs ih => exact ih.tail hs.1

/-- Nothing is aborted without an error, and no program is cancelled before that. -/
structure Unprovoked (isCancelled : E → Bool) (members : List ι)
    (g : TaskGroup ι (Programs ι V E W α) E) : Prop where
  errors : g.aborting = true → g.errors ≠ []
  cancelled : g.aborting = false → ∀ i ∈ members, ∀ e w, g.store i = (.throw e, w) →
    isCancelled e = false

theorem Unprovoked.executes (h : g.Unprovoked isCancelled members) (hm : i ∈ members)
    {t : Option (TaskOutcome E)} {store' : Programs ι V E W α}
    (hb : Executes next isCancelled i first g.store t store')
    (hr : Requested members g { g.setStage i (.afterStep t) with store := store' })
    (hs : g.stage i ≠ .done .cancelled) :
    ({ g.setStage i (.afterStep t) with store := store' } :
      TaskGroup ι (Programs ι V E W α) E).Unprovoked isCancelled members := by
  refine ⟨h.errors, fun ha j hj e w he => ?_⟩
  by_cases hji : j = i
  · subst hji
    change store' j = _ at he
    cases hb with
    | waits | returns =>
      rw [Function.update_self] at he
      cases he
    | raises _ hc =>
      rw [Function.update_self] at he
      cases he
      exact hc
    | cancelled =>
      have hstage : (g.setStage j (.afterStep (some .cancelled))).stage j = .done .cancelled :=
        Function.update_self ..
      exact absurd (hr ha j hj hstage) hs
  · exact h.cancelled ha j hj e w ((executes_other hb hji).symm.trans he)

omit [DecidableEq ι] in
theorem afterSettled_aborting (members : List ι) (g : TaskGroup ι (Programs ι V E W α) E) :
    (g.afterSettled members).aborting = g.aborting := by
  rw [afterSettled]
  split <;> rfl

theorem settle_aborting (members : List ι) (g : TaskGroup ι (Programs ι V E W α) E) (i : ι)
    (outcome : TaskOutcome E) :
    (g.settle members i outcome).aborting = g.aborting ∨
      (g.settle members i outcome).aborting = true ∧ ∃ e, outcome = .raised e := by
  cases outcome with
  | raised e =>
    by_cases ha : (g.settle members i (.raised e)).aborting = true
    · exact .inr ⟨ha, e, rfl⟩
    · left
      rw [Bool.not_eq_true] at ha
      rw [ha]
      have hkept := afterSettled_aborting members (g.setStage i .settled)
      cases hg : g.aborting with
      | false => rfl
      | true =>
        have hself : ((g.setStage i .settled).afterSettled members).aborting = true :=
          hkept.trans hg
        have hfail : (g.settle members i (.raised e)).aborting = true := by
          change (((g.setStage i .settled).afterSettled members).fail e).aborting = true
          simp only [fail, hself, Bool.true_or, if_true]
        rw [hfail] at ha
        cases ha
  | returned | cancelled => exact .inl (afterSettled_aborting members (g.setStage i .settled))

omit [DecidableEq ι] in
theorem exit_aborting (g : TaskGroup ι (Programs ι V E W α) E) : g.exit.aborting = g.aborting := by
  have hu : g.uncancel.aborting = g.aborting := by
    rw [uncancel]
    split
    · rfl
    · split <;> rfl
  simp only [exit]
  split <;> exact hu

theorem Unprovoked.step (h : g.Unprovoked isCancelled members) (hu : g.Undisturbed members)
    (hs : Step members (Executes next isCancelled) g g') (hr : Requested members g g') :
    g'.Unprovoked isCancelled members := by
  cases hs with
  | first hm hstage hbody => exact h.executes hm hbody hr (by rw [hstage]; nofun)
  | later hm hstage hbody => exact h.executes hm hbody hr (by rw [hstage]; nofun)
  | unstarted => exact ⟨h.errors, h.cancelled⟩
  | @settle i outcome _ hm hstage =>
    have herrors := settle_errors members g i outcome
    have hstore : (g.settle members i outcome).store = g.store := settle_store g i outcome
    constructor
    · intro ha
      rw [herrors]
      rcases settle_aborting members g i outcome with hsame | ⟨-, e, rfl⟩
      · exact List.append_ne_nil_of_left_ne_nil (h.errors (hsame ▸ ha)) _
      · exact List.append_ne_nil_of_right_ne_nil _ (List.cons_ne_nil e [])
    · intro ha
      rw [hstore]
      rcases settle_aborting members g i outcome with hsame | ⟨ha', -⟩
      · exact h.cancelled (hsame ▸ ha)
      · rw [ha] at ha'
        cases ha'
  | @resume p found _ hex hfound =>
    rw [(hu.waiting hex).resume_eq hfound]
    split
    · have haborting := exit_aborting { g with parent := p }
      have hstore := exit_store { g with parent := p }
      have herrors := exit_errors { g with parent := p }
      constructor
      · rw [haborting, herrors]
        exact h.errors
      · rw [haborting, hstore]
        exact h.cancelled
    · exact ⟨h.errors, h.cancelled⟩

theorem OwnRuns.unprovoked (hne : members ≠ [])
    (hstore : ∀ i ∈ members, ((store i).1.outcome?) = none)
    (hr : OwnRuns members next isCancelled (.start store) g) :
    g.Unprovoked isCancelled members := by
  induction hr with
  | refl =>
    refine ⟨nofun, fun _ i hi e w he => ?_⟩
    have ho := hstore i hi
    change store i = _ at he
    rw [he] at ho
    cases ho
  | tail hr hs ih =>
    obtain ⟨-, hu, -⟩ := (OwnRuns.runs hr).programs hne hstore
    exact ih.step hu hs.1.1 hs.2

theorem OwnRuns.returned (hne : members ≠ [])
    (hstore : ∀ i ∈ members, ((store i).1.outcome?) = none)
    (hr : OwnRuns members next isCancelled (.start store) g)
    (hx : g.exited = some .returned) (hi : i ∈ members) :
    ∃ a w, Prog.Steps next (store i).1 (store i).2 (.pure a) w ∧ g.store i = (.pure a, w) := by
  obtain ⟨hs, hu, ha⟩ := hr.runs.programs hne hstore
  have hun := hr.unprovoked hne hstore
  have hnil := ha.returned hx
  have hcalm : g.aborting = false := by
    rw [← Bool.not_eq_true]
    exact fun h => hun.errors h hnil
  obtain ⟨hsteps, hended⟩ := hs i hi
  have hsettled := (hu.left _ hx).settled i hi
  obtain ⟨x, hout⟩ := Option.isSome_iff_exists.1 (hended (by rw [hsettled]; rfl))
  generalize hentry : g.store i = entry at hsteps hout
  obtain ⟨q, w⟩ := entry
  cases q with
  | pure a => exact ⟨a, w, hsteps, rfl⟩
  | throw e =>
    have hc := hun.cancelled hcalm i hi e w hentry
    have hf : failureOf isCancelled g.store i = some e := by
      rw [failureOf, hentry]
      simp only [hc]
      rfl
    have hmem := ha.settled i hi hsettled e hf
    rw [hnil] at hmem
    cases hmem
  | call c f => cases hout

/-- A group raises what tasks of it have raised, cancellations aside. -/
theorem Runs.programs_raised (hne : members ≠ [])
    (hstore : ∀ i ∈ members, ((store i).1.outcome?) = none)
    (hr : Runs members (Executes next isCancelled) (.start store) g)
    {raised : List E} (hx : g.exited = some (.raised raised)) :
    raised ≠ [] ∧ ∀ e ∈ raised, ∃ i ∈ members, ∃ w,
      Prog.Steps next (store i).1 (store i).2 (.throw e) w := by
  obtain ⟨hs, hu, ha⟩ := hr.programs hne hstore
  obtain ⟨rfl, hnil⟩ := ha.raised raised hx
  refine ⟨hnil, fun e he => ?_⟩
  obtain ⟨i, hi, hf⟩ := ha.shown e he
  refine ⟨i, hi, (g.store i).2, ?_⟩
  have hsteps := (hs i hi).1
  rw [failureOf] at hf
  split at hf
  · rename_i hthrow
    rw [hthrow] at hsteps
    split at hf
    · cases hf
    · cases hf
      exact hsteps
  · cases hf

end Programs

end TaskGroup

end Library
