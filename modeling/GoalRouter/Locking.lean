import GoalRouter.Errors
import GoalRouter.Library.Program

namespace GoalRouter
open Library
set_option autoImplicit true

/-- An exception object: what `isinstance` tells of it, and the notes added to it. -/
structure Raised where
  error : PyError
  isOSError : Bool
  notes : List Text
  deriving DecidableEq

namespace Raised

def message (e : Raised) : Text := e.error.message

def addNote (e : Raised) (note : Text) : Raised := { e with notes := e.notes ++ [note] }

@[simp] theorem addNote_error (e : Raised) (note : Text) : (e.addNote note).error = e.error := rfl

end Raised

/-- A wait of the owner that a `CancelledError` ended, with the number of requests so far. -/
structure Interruption where
  error : Raised
  cancelling : Nat

/-- How a task that its owner waits for goes: the waits that ended early, and its result. -/
structure OwnedTask (α : Type) where
  observed : Nat
  interruptions : List Interruption
  result : Except Raised α

def waitLoop (observed : Nat) : List Interruption → List Raised
  | [] => []
  | interruption :: rest =>
    let current := interruption.cancelling
    if current = observed then []
    else
      let coalesced := current - observed
      let cancellation :=
        if coalesced > 1 then
          interruption.error.addNote (decimal (coalesced - 1 : Nat) ++
            text " additional cancellation request(s) were coalesced")
        else interruption.error
      cancellation :: waitLoop current rest

/-- The cancellations seen while waiting for an owned task. -/
def waitForOwnedTask (task : OwnedTask α) : List Raised :=
  waitLoop task.observed task.interruptions

/-- The wait ends only with the task: whatever interrupts it earlier is a new request. -/
def OwnedTask.IsWaitedFor (task : OwnedTask α) : Prop :=
  List.IsChain (· < ·) (task.observed :: task.interruptions.map Interruption.cancelling)

/-- Combine repeated cancellation requests while retaining their diagnostics. -/
def prepareCancellation (primary : Raised) (others : List Raised) (operation : Text) : Raised :=
  others.foldl (fun primary additional =>
    let message :=
      if additional.message = [] then text "without a message" else additional.message
    additional.notes.foldl
      (fun primary note => primary.addNote (text "Additional cancellation detail: " ++ note))
      (primary.addNote (text "Additional cancellation while waiting for owned " ++ operation ++
        text ": " ++ message))) primary

/-- What a lease does: acquire in a task of its own, run the body, release in a task of its own. -/
inductive LeaseCall where
  | acquire
  | enter
  | release (descriptor : Nat)

def LeaseVal : LeaseCall → Type
  | .acquire => OwnedTask Nat
  | .enter => Unit
  | .release _ => OwnedTask Unit

abbrev LeaseProgram (α : Type) := Prog LeaseVal Raised α

def leaseOperation : Text := text "lease operation"

def releaseCancellationSafe (descriptor : Nat) : LeaseProgram Unit := do
  let release : OwnedTask Unit ← Prog.invoke (LeaseCall.release descriptor)
  match release.result, waitForOwnedTask release with
  | .error cleanupError, [] => .throw cleanupError
  | .error cleanupError, c :: cs =>
    .throw ((prepareCancellation c cs leaseOperation).addNote
      (text "Lease cleanup failed after cancellation: " ++ cleanupError.message))
  | .ok (), [] => pure ()
  | .ok (), c :: cs => .throw (prepareCancellation c cs leaseOperation)

def acquireCancellationSafe (failureError : Raised → Raised) : LeaseProgram Nat := do
  let acquisition : OwnedTask Nat ← Prog.invoke LeaseCall.acquire
  match acquisition.result, waitForOwnedTask acquisition with
  | .error e, c :: cs =>
    .throw ((prepareCancellation c cs leaseOperation).addNote
      (text "Lease acquisition completed with an error after cancellation: " ++ e.message))
  | .error e, [] => if e.isOSError then .throw (failureError e) else .throw e
  | .ok descriptor, c :: cs =>
    let cancellation := prepareCancellation c cs leaseOperation
    match ← (releaseCancellationSafe descriptor).attempt with
    | .ok () => .throw cancellation
    | .error cleanupError =>
      .throw (cleanupError.notes.foldl
        (fun e note => e.addNote (text "Lease cancellation cleanup detail: " ++ note))
        (cancellation.addNote (text "Lease cancellation cleanup failed: " ++ cleanupError.message)))
  | .ok descriptor, [] => pure descriptor

/-- The lease around its body. An exception of the body wins over one of the release. -/
def exclusiveLease (failureError : Raised → Raised) : LeaseProgram Unit := do
  let descriptor ← acquireCancellationSafe failureError
  match ← (Prog.invoke LeaseCall.enter).attempt with
  | .ok () => releaseCancellationSafe descriptor
  | .error primaryError =>
    match ← (releaseCancellationSafe descriptor).attempt with
    | .ok () => .throw primaryError
    | .error cleanupError =>
      .throw (primaryError.addNote (text "Lease cleanup failed: " ++ cleanupError.message))

end GoalRouter
