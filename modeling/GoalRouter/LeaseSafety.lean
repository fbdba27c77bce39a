import GoalRouter.Locking
import Mathlib.Data.List.Chain

namespace GoalRouter
open Library
set_option autoImplicit true

section Waiting

variable {α : Type} {task : OwnedTask α}

/-- A task whose wait ends with it has been waited for through every request. -/
theorem waitForOwnedTask_eq_nil (h : task.IsWaitedFor) :
    waitForOwnedTask task = [] ↔ task.interruptions = [] := by
  rw [OwnedTask.IsWaitedFor] at h
  rw [waitForOwnedTask]
  cases hi : task.interruptions with
  | nil => exact iff_of_true rfl rfl
  | cons i rest =>
    rw [hi, List.map_cons, List.isChain_cons_cons] at h
    rw [waitLoop, if_neg (Nat.ne_of_gt h.1)]
    exact iff_of_false (List.cons_ne_nil _ _) (List.cons_ne_nil _ _)

end Waiting

/-- What happened to a lease: how it was acquired, how its body ended, how it was released. -/
inductive LeaseEvent where
  | acquired (task : OwnedTask Nat)
  | entered (result : Except Raised Unit)
  | released (descriptor : Nat) (task : OwnedTask Unit)

namespace LeaseEvent

/-- The descriptor that an acquisition has returned. -/
def descriptor? : LeaseEvent → Option Nat
  | .acquired task => task.result.toOption
  | _ => none

theorem descriptor?_acquired {task : OwnedTask Nat} (h : task.result = .ok descriptor) :
    (acquired task).descriptor? = some descriptor := by
  rw [descriptor?, h]
  rfl

def released? : LeaseEvent → Option Nat
  | .released descriptor _ => some descriptor
  | _ => none

/-- The owner was cancelled while it waited for the lease. -/
def IsCancelled : LeaseEvent → Prop
  | .acquired task => task.interruptions ≠ []
  | .entered _ => False
  | .released _ task => task.interruptions ≠ []

end LeaseEvent

/-- The operations may end in any way and be cancelled at any time; a wait ends with its task. -/
inductive LeaseNext : Prog.Answers LeaseVal Raised (List LeaseEvent) where
  | acquired (h : task.IsWaitedFor) : LeaseNext log .acquire (.ok task) (.acquired task :: log)
  | entered : LeaseNext log .enter result (.entered result :: log)
  | released (h : task.IsWaitedFor) :
      LeaseNext log (.release descriptor) (.ok task) (.released descriptor task :: log)

/-- What a lease owes its owner once it has been left. -/
structure LeaseKept (log : List LeaseEvent) (outcome : Except Raised Unit) : Prop where
  sought : ∃ task, .acquired task ∈ log
  entered : (∃ result, .entered result ∈ log) ↔ ∃ task descriptor, .acquired task ∈ log ∧
    task.result = .ok descriptor ∧ task.interruptions = []
  released : log.filterMap LeaseEvent.released? = log.filterMap LeaseEvent.descriptor?
  cancelled : (∃ e ∈ log, e.IsCancelled) → outcome ≠ .ok ()
  propagates : ∀ e, .entered (.error e) ∈ log →
    ∃ notes, outcome = .error { e with notes := e.notes ++ notes }

section Lease

/-- Run with the given log, the program leaves the lease as `Q` says. -/
abbrev Leaves (Q : Except Raised α → List LeaseEvent → Prop) (p : LeaseProgram α)
    (log : List LeaseEvent) : Prop :=
  p.Safe LeaseNext (fun _ => True) (fun a log' => Q (.ok a) log') (fun e log' => Q (.error e) log')
    log

theorem releaseCancellationSafe_leaves (descriptor : Nat) (log : List LeaseEvent) :
    Leaves (fun result log' => ∃ task : OwnedTask Unit, log' = .released descriptor task :: log ∧
      (result = .ok () → task.interruptions = [])) (releaseCancellationSafe descriptor) log := by
  rw [releaseCancellationSafe]
  apply Prog.Safe.bind (Q := fun task log' => task.IsWaitedFor ∧
    log' = .released descriptor task :: log)
  · apply Prog.Safe.invoke
    intro r log' hn
    cases hn with
    | released h => exact ⟨trivial, h, rfl⟩
  · intro task log' ⟨h, hl⟩
    have hnil := waitForOwnedTask_eq_nil h
    cases hr : task.result with
    | error e =>
      cases hw : waitForOwnedTask task with
      | nil => exact ⟨task, hl, nofun⟩
      | cons c cs => exact ⟨task, hl, nofun⟩
    | ok u =>
      cases hw : waitForOwnedTask task with
      | nil => exact ⟨task, hl, fun _ => hnil.1 hw⟩
      | cons c cs => exact ⟨task, hl, nofun⟩

/-- How an acquisition ends: with the lease, without one, or with one given back. -/
inductive Acquisition : Except Raised Nat → List LeaseEvent → Prop where
  | held {task : OwnedTask Nat} {descriptor : Nat} (hr : task.result = .ok descriptor)
      (hi : task.interruptions = []) : Acquisition (.ok descriptor) [.acquired task]
  | failed {task : OwnedTask Nat} {e e' : Raised} (hr : task.result = .error e) :
      Acquisition (.error e') [.acquired task]
  | returned {task : OwnedTask Nat} {descriptor : Nat} {e : Raised} {release : OwnedTask Unit}
      (hr : task.result = .ok descriptor) (hi : task.interruptions ≠ []) :
      Acquisition (.error e) [.released descriptor release, .acquired task]

theorem acquireCancellationSafe_leaves (failureError : Raised → Raised) :
    Leaves Acquisition (acquireCancellationSafe failureError) [] := by
  rw [acquireCancellationSafe]
  apply Prog.Safe.bind (Q := fun task log => task.IsWaitedFor ∧ log = [.acquired task])
  · apply Prog.Safe.invoke
    intro r log' hn
    cases hn with
    | acquired h => exact ⟨trivial, h, rfl⟩
  · rintro task _ ⟨h, rfl⟩
    have hnil := waitForOwnedTask_eq_nil h
    cases hr : task.result with
    | error e =>
      cases hw : waitForOwnedTask task with
      | nil =>
        simp only
        split
        · exact .failed hr
        · exact .failed hr
      | cons c cs => exact .failed hr
    | ok descriptor =>
      cases hw : waitForOwnedTask task with
      | nil => exact .held hr (hnil.1 hw)
      | cons c cs =>
        have hi : task.interruptions ≠ [] := by
          intro hi
          rw [hnil.2 hi] at hw
          cases hw
        apply (releaseCancellationSafe_leaves descriptor _).attempt_bind
        intro r log' hr'
        cases r with
        | ok u =>
          obtain ⟨release, rfl, _⟩ := hr'
          exact .returned hr hi
        | error e =>
          obtain ⟨release, rfl, _⟩ := hr'
          exact .returned hr hi

theorem LeaseKept.of_acquisition (h : Acquisition (.error e) log) : LeaseKept log (.error e) := by
  cases h with
  | @failed task _ _ hr =>
    refine ⟨⟨task, by simp⟩, iff_of_false (by simp) ?_, ?_, fun _ => nofun, by simp⟩
    · intro ⟨task', descriptor, hm, hd, _⟩
      cases List.mem_singleton.1 hm
      rw [hr] at hd
      cases hd
    · have hd : (LeaseEvent.acquired task).descriptor? = none := by
        rw [LeaseEvent.descriptor?, hr]
        rfl
      rw [List.filterMap_cons_none hd]
      rfl
  | @returned task descriptor _ release hr hi =>
    refine ⟨⟨task, by simp⟩, iff_of_false (by simp) ?_, ?_, fun _ => nofun, by simp⟩
    · intro ⟨task', descriptor', hm, _, hn⟩
      have he : task' = task := by simpa using hm
      exact hi (he ▸ hn)
    · rw [List.filterMap_cons_none (f := LeaseEvent.descriptor?) rfl,
        List.filterMap_cons_some (LeaseEvent.descriptor?_acquired hr)]
      rfl

/-- A lease that was held, and given back once its body had ended. -/
theorem LeaseKept.of_body {task : OwnedTask Nat} {release : OwnedTask Unit}
    {result outcome : Except Raised Unit} (hr : task.result = .ok descriptor)
    (hi : task.interruptions = []) (hc : outcome = .ok () → release.interruptions = [])
    (hp : ∀ e, result = .error e → ∃ notes, outcome = .error { e with notes := e.notes ++ notes }) :
    LeaseKept [.released descriptor release, .entered result, .acquired task] outcome where
  sought := ⟨task, by simp⟩
  entered := by
    apply iff_of_true
    · exact ⟨result, by simp⟩
    · exact ⟨task, descriptor, by simp, hr, hi⟩
  released := by
    rw [List.filterMap_cons_none (f := LeaseEvent.descriptor?) rfl,
      List.filterMap_cons_none (f := LeaseEvent.descriptor?) rfl,
      List.filterMap_cons_some (LeaseEvent.descriptor?_acquired hr)]
    rfl
  cancelled := by
    intro ⟨e, hm, he⟩ ho
    simp only [List.mem_cons, List.not_mem_nil, or_false] at hm
    rcases hm with rfl | rfl | rfl
    · exact he (hc ho)
    · exact he
    · exact he hi
  propagates := by
    intro e hm
    apply hp e
    have he : .error e = result := by simpa using hm
    exact he.symm

theorem exclusiveLease_leaves (failureError : Raised → Raised) :
    Leaves (fun outcome log => LeaseKept log outcome) (exclusiveLease failureError) [] := by
  have hacquire := (acquireCancellationSafe_leaves failureError).mono
    (fun _ _ h => h)
    fun _ _ h => LeaseKept.of_acquisition h
  apply hacquire.bind
  intro descriptor log hl
  cases hl with
  | @held task _ hr hi =>
    have hbody : Leaves (fun result log => log = [.entered result, .acquired task])
        (Prog.invoke LeaseCall.enter) [.acquired task] := by
      apply Prog.Safe.invoke
      intro r log' hn
      cases hn with
      | entered => cases r <;> exact ⟨trivial, rfl⟩
    apply hbody.attempt_bind
    intro result log hl
    cases result with
    | ok u =>
      cases hl
      apply (releaseCancellationSafe_leaves descriptor _).mono
      · intro u' log ⟨release, hl, hc⟩
        exact hl ▸ .of_body hr hi hc nofun
      · intro e log ⟨release, hl, hc⟩
        exact hl ▸ .of_body hr hi nofun nofun
    | error e =>
      cases hl
      apply (releaseCancellationSafe_leaves descriptor _).attempt_bind
      intro r log hr'
      cases r with
      | ok u =>
        obtain ⟨release, rfl, _⟩ := hr'
        refine .of_body hr hi nofun fun e' he => ⟨[], ?_⟩
        cases he
        rw [List.append_nil]
      | error cleanupError =>
        obtain ⟨release, rfl, _⟩ := hr'
        refine .of_body hr hi nofun fun e' he => ?_
        cases he
        exact ⟨_, rfl⟩

/-- However the operations of a lease end, and whenever its owner is cancelled, it is kept. -/
theorem exclusiveLease_kept {failureError : Raised → Raised} {p : LeaseProgram Unit}
    (h : Prog.Steps LeaseNext (exclusiveLease failureError) [] p log)
    (ho : p.outcome? = some outcome) : LeaseKept log outcome := by
  have hends := (exclusiveLease_leaves failureError).ends trivial h ho
  cases outcome <;> exact hends

def sampleAcquisition : OwnedTask Nat := ⟨0, [], .ok 3⟩

def sampleRelease : OwnedTask Unit :=
  ⟨0, [⟨⟨.cancelled, false, []⟩, 2⟩], .error ⟨⟨.stateError, text "unlock"⟩, true, []⟩⟩

def sampleFailure : Raised := ⟨⟨.sdkError, text "body"⟩, false, []⟩

/-- A body fails under a lease whose release fails after two requests to cancel the owner. -/
theorem exclusiveLease_kept_sample : ∃ log,
    Prog.Steps LeaseNext (exclusiveLease id) []
      (.throw (sampleFailure.addNote (text "Lease cleanup failed: "))) log ∧
    .released 3 sampleRelease ∈ log ∧
      LeaseKept log (.error (sampleFailure.addNote (text "Lease cleanup failed: "))) := by
  have ha : LeaseNext [] .acquire (.ok sampleAcquisition) [.acquired sampleAcquisition] :=
    .acquired (List.isChain_singleton _)
  have hb : LeaseNext [.acquired sampleAcquisition] .enter (.error sampleFailure)
      [.entered (.error sampleFailure), .acquired sampleAcquisition] := .entered
  have hr : LeaseNext [.entered (.error sampleFailure), .acquired sampleAcquisition] (.release 3)
      (.ok sampleRelease) [.released 3 sampleRelease, .entered (.error sampleFailure),
        .acquired sampleAcquisition] :=
    .released (List.isChain_cons_cons.2 ⟨by decide, List.isChain_singleton _⟩)
  have hs : Prog.Steps LeaseNext (exclusiveLease id) [] (.throw
      (sampleFailure.addNote (text "Lease cleanup failed: "))) _ :=
    .call ha (.call hb (.call hr .refl))
  exact ⟨_, hs, List.mem_cons_self, exclusiveLease_kept hs rfl⟩

end Lease

end GoalRouter
