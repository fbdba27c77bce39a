import Mathlib.Data.Option.Basic

namespace Library
set_option autoImplicit true

/-- How an asynchronous task ended. -/
inductive TaskOutcome (ε : Type) where
  | returned
  | raised (error : ε)
  | cancelled
  deriving DecidableEq

/-- The future a suspended task waits on. A cancelled one tells whether a request to the task that
waits on it cancelled it. -/
inductive Waiter (μ ε : Type) where
  | pending
  | returned
  | raised (error : ε)
  | cancelled (message : Option μ) (requested : Bool)
  deriving DecidableEq

namespace Waiter

variable {μ ε : Type}

/-- The future of a shield takes over how the shielded task ended, unless it is done already. -/
def forward (outcome : TaskOutcome ε) : Waiter μ ε → Waiter μ ε
  | .pending =>
    match outcome with
    | .returned => .returned
    | .raised error => .raised error
    | .cancelled => .cancelled none false
  | waiter => waiter

/-- The future is done, and not because of a request to the task that waits on it. -/
def SettledOtherwise : Waiter μ ε → Prop
  | .pending => False
  | .cancelled _ requested => requested = false
  | _ => True

theorem not_settledOtherwise_cancelled (message : Option μ) :
    ¬(Waiter.cancelled message true : Waiter μ ε).SettledOtherwise := by
  intro h
  exact Bool.noConfusion h

end Waiter

/-- What a resumed task finds where it waited. A cancellation tells whether it delivers a request to
the task. -/
inductive Resumption (μ ε : Type) where
  | value
  | error (error : ε)
  | cancelled (message : Option μ) (requested : Bool)

/-- The cancellation requests to a task: their number, and the one that is due at the next wait. -/
structure CancelState (μ : Type) where
  cancelling : Nat
  mustCancel : Bool
  message : Option μ
  deriving DecidableEq

namespace CancelState

variable {μ ε : Type} {s : CancelState μ} {message : Option μ} {waiter : Waiter μ ε}

/-- A request while the task executes: it is counted at once and raised at the next wait. -/
def cancel (s : CancelState μ) (message : Option μ) : CancelState μ :=
  ⟨s.cancelling + 1, true, message⟩

/-- A request while the task is suspended cancels what it waits on, unless that is done already. -/
def cancelWaiting (s : CancelState μ) (message : Option μ) :
    Waiter μ ε → CancelState μ × Waiter μ ε
  | .pending => ({ s with cancelling := s.cancelling + 1 }, .cancelled message true)
  | waiter => (s.cancel message, waiter)

/-- The task begins to wait on a new future, which a request that is due cancels at once. -/
def suspend (s : CancelState μ) : CancelState μ × Waiter μ ε :=
  if s.mustCancel then ({ s with mustCancel := false }, .cancelled s.message true)
  else (s, .pending)

/-- What the task finds once the future is done. One cancellation delivers every request so far. -/
def resume (s : CancelState μ) : Waiter μ ε → Option (CancelState μ × Resumption μ ε)
  | .pending => none
  | .returned => some ({ s with mustCancel := false },
      if s.mustCancel then .cancelled s.message true else .value)
  | .raised error => some ({ s with mustCancel := false },
      if s.mustCancel then .cancelled s.message true else .error error)
  | .cancelled message requested =>
    some ({ s with mustCancel := false }, .cancelled message (requested || s.mustCancel))

@[simp] theorem cancel_cancelling : (s.cancel message).cancelling = s.cancelling + 1 := rfl

@[simp] theorem cancelWaiting_cancelling :
    (s.cancelWaiting message waiter).1.cancelling = s.cancelling + 1 := by
  cases waiter with
  | pending => rfl
  | returned => rfl
  | raised error => rfl
  | cancelled message requested => rfl

@[simp] theorem suspend_cancelling :
    (s.suspend : CancelState μ × Waiter μ ε).1.cancelling = s.cancelling := by
  rw [suspend]
  split
  · rfl
  · rfl

theorem not_settledOtherwise_suspend :
    ¬(s.suspend : CancelState μ × Waiter μ ε).2.SettledOtherwise := by
  rw [suspend]
  split
  · exact Waiter.not_settledOtherwise_cancelled s.message
  · exact id

theorem settledOtherwise_of_cancelWaiting
    (h : (s.cancelWaiting message waiter).2.SettledOtherwise) : waiter.SettledOtherwise := by
  cases waiter with
  | pending => exact absurd h (Waiter.not_settledOtherwise_cancelled message)
  | returned => trivial
  | raised error => trivial
  | cancelled message requested => exact h

theorem resume_cancelling {s' : CancelState μ} {found : Resumption μ ε}
    (h : s.resume waiter = some (s', found)) : s'.cancelling = s.cancelling := by
  cases waiter with
  | pending => exact nomatch h
  | returned => cases h; rfl
  | raised error => cases h; rfl
  | cancelled message requested => cases h; rfl

/-- A task goes on without a request of its own only after the future was settled otherwise. -/
theorem resume_cases {s' : CancelState μ} {found : Resumption μ ε}
    (h : s.resume waiter = some (s', found)) :
    (∃ message, found = .cancelled message true) ∨ waiter.SettledOtherwise := by
  cases waiter with
  | pending => exact nomatch h
  | returned => exact .inr trivial
  | raised error => exact .inr trivial
  | cancelled message requested =>
    cases requested with
    | true =>
      cases h
      exact .inl ⟨message, rfl⟩
    | false => exact .inr rfl

end CancelState

end Library
