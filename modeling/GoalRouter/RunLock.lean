import GoalRouter.RepositoryEvidence
import GoalRouter.Library.Ownership
import GoalRouter.Locking

namespace GoalRouter
open Library
set_option autoImplicit true

namespace FileRunLease

inductive OpenFlag where
  | readOnly
  | readWrite
  | create
  | directory
  | closeOnExec
  | noFollow
  | nonBlock
  deriving DecidableEq

def directoryFlags : List OpenFlag := [.readOnly, .directory, .closeOnExec, .noFollow]

def runLockFlags : List OpenFlag := [.readWrite, .create, .closeOnExec, .noFollow, .nonBlock]

def privateDirectoryMode : Nat := 0o700

def privateFileMode : Nat := 0o600

/-- What the opening of a run lock asks of the operating system. -/
inductive Call where
  /-- `state_root.mkdir`, with its parents, where it is missing. -/
  | makePath (path : PurePath) (mode : Nat)
  | makeDirectory (name : Text) (mode parentDescriptor : Nat)
  | openPath (path : PurePath) (flags : List OpenFlag)
  | openAt (name : Text) (flags : List OpenFlag) (mode parentDescriptor : Nat)
  /-- The `st_mode` of `os.fstat`. -/
  | fstat (descriptor : Nat)
  | changeMode (descriptor mode : Nat)
  | close (descriptor : Nat)

def Val : Call → Type
  | .openPath .. | .openAt .. | .fstat _ => Nat
  | .makePath .. | .makeDirectory .. | .changeMode .. | .close _ => Unit

abbrev Opening (α : Type) := Prog Val Raised α

def invoke (c : Call) : Opening (Val c) := Prog.invoke c

def isFileExists (e : Raised) : Bool := e.error.kind = .other (text "FileExistsError")

def openPrivateDirectory (parentDescriptor : Nat) (name : Text) : Opening Nat := do
  (invoke (.makeDirectory name privateDirectoryMode parentDescriptor)).attempt >>= fun
    | .ok () => pure ()
    | .error e => if isFileExists e then pure () else .throw e
  let descriptor ← invoke (.openAt name directoryFlags 0o777 parentDescriptor)
  (invoke (.changeMode descriptor privateDirectoryMode)).attempt >>= fun
    | .ok () => pure descriptor
    | .error e => (invoke (.close descriptor)).attempt >>= fun
      | .ok () => .throw e
      | .error cleanupError =>
        if cleanupError.isOSError then
          .throw (e.addNote (text "Private directory descriptor cleanup failed: " ++
            cleanupError.message))
        else .throw cleanupError

def closeEach (primaryError : Option Raised) : List Nat → Opening (Option Raised)
  | [] => pure primaryError
  | descriptor :: descriptors =>
    (invoke (.close descriptor)).attempt >>= fun
      | .ok () => closeEach primaryError descriptors
      | .error e =>
        if e.isOSError then
          match primaryError with
          | none => closeEach (some e) descriptors
          | some first => closeEach
              (some (first.addNote (text "Additional descriptor close failed: " ++ e.message)))
              descriptors
        else .throw e

def closeDescriptors (descriptors : List Nat) : Opening (Option Raised) :=
  closeEach none descriptors.reverse

def stateFailure (message : Text) : Raised := ⟨stateError message, false, []⟩

/-- The directories above the lock file. Each is remembered as soon as it is open. -/
def openDirectories (stateRoot : PurePath) : TryBlock Val Raised Nat Nat := do
  .perform (invoke (.makePath stateRoot privateDirectoryMode))
  let rootDescriptor : Nat ← .collect ([·]) (invoke (.openPath stateRoot directoryFlags))
  let locksDescriptor ← .collect ([·]) (openPrivateDirectory rootDescriptor (text ".locks"))
  .collect ([·]) (openPrivateDirectory locksDescriptor (text "runs"))

def checkLock (lockPath : PurePath) (lockDescriptor : Nat) : Opening Unit := do
  let mode : Nat ← invoke (.fstat lockDescriptor)
  if modeType mode = .regular then invoke (.changeMode lockDescriptor privateFileMode)
  else .throw (stateFailure (text "Run lease path is not a regular file: " ++ lockPath.text))

/-- The rest of the block: how it ends, and `lock_descriptor` as it is then. -/
def openLock (lockPath : PurePath) (runId : Text) (runsDescriptor : Nat) :
    Opening (Except Raised Nat × Option Nat) :=
  (invoke (.openAt (runId ++ text ".lock") runLockFlags privateFileMode runsDescriptor)).attempt
    >>= fun
      | .error e => pure (.error e, none)
      | .ok (lockDescriptor : Nat) =>
        (checkLock lockPath lockDescriptor).attempt >>= fun
          | .ok () => pure (.ok lockDescriptor, some lockDescriptor)
          | .error e => pure (.error e, some lockDescriptor)

/-- The exception that leaves the `except` clauses. -/
def primaryError (lockPath : PurePath) (e : Raised) : Raised :=
  if e.isOSError then
    stateFailure (text "Cannot open run lease " ++ lockPath.text ++ text ": " ++ e.message)
  else e

def noteOn (e : Raised) (message : Text) : Option Raised → Raised
  | none => e
  | some later => e.addNote (message ++ later.message)

/-- The `finally` block. The lock is transferred just where the block before it returns. -/
def finish (lockPath : PurePath) (outcome : Except Raised Nat) (descriptors : List Nat)
    (lockDescriptor : Option Nat) : Opening Nat := do
  let transferred := outcome.isOk
  let lockError ← closeDescriptors (if transferred then [] else lockDescriptor.toList)
  let directoryError ← closeDescriptors descriptors
  let cleanupError := match lockError with
    | none => directoryError
    | some e => some (noteOn e (text "Run lease directory cleanup also failed: ") directoryError)
  match cleanupError with
  | none => .ofExcept outcome
  | some cleanupError => do
    let lockCleanupError ← closeDescriptors (if transferred then lockDescriptor.toList else [])
    let cleanupError := noteOn cleanupError
      (text "Run lease lock descriptor cleanup also failed: ") lockCleanupError
    let message := text "Run lease descriptor cleanup failed for " ++ lockPath.text
    match outcome with
    | .error e => .throw (e.addNote (message ++ text ": " ++ cleanupError.message))
    | .ok _ => .throw (stateFailure message)

def runLockPath (stateRoot : PurePath) (runId : Text) : PurePath :=
  ((stateRoot.join (.ofText (text ".locks"))).join (.ofText (text "runs"))).join
    (.ofText (runId ++ text ".lock"))

def openRunLock (stateRoot : PurePath) (runId : Text) : Opening Nat := do
  let lockPath := runLockPath stateRoot runId
  match ← openDirectories stateRoot [] with
  | (.error e, descriptors) => finish lockPath (.error (primaryError lockPath e)) descriptors none
  | (.ok runsDescriptor, descriptors) => do
    let (outcome, lockDescriptor) ← openLock lockPath runId runsDescriptor
    finish lockPath (outcome.mapError (primaryError lockPath)) descriptors lockDescriptor

/-- The descriptors opened and passed to `close`, and those that opening a lock file returned. -/
structure Log where
  descriptors : List (Ownership Nat)
  locks : List Nat

namespace Log

def empty : Log := ⟨[], []⟩

def after (log : Log) : (c : Call) → Except Raised (Val c) → Log
  | .openPath .., .ok descriptor =>
    { log with descriptors := log.descriptors ++ [.acquired descriptor] }
  | .openAt _ flags _ _, .ok descriptor =>
    { log with
      descriptors := log.descriptors ++ [.acquired descriptor]
      locks := if flags = runLockFlags then descriptor :: log.locks else log.locks }
  | .close descriptor, _ => { log with descriptors := log.descriptors ++ [.released descriptor] }
  | _, _ => log

/-- A returned descriptor is the lock's, and all that is left open; an exception leaves nothing
open. -/
def Settled (log : Log) : Except Raised Nat → Prop
  | .ok descriptor => descriptor ∈ log.locks ∧ Outstanding log.descriptors {descriptor}
  | .error _ => ReleasedOnce log.descriptors

end Log

/-- Any call may fail, with any exception, but closing raises nothing but `OSError`. -/
def Permitted : (c : Call) → Except Raised (Val c) → Prop
  | .close _, .error e => e.isOSError = true
  | _, _ => True

def Next : Prog.Answers Val Raised Log := fun log c r log' => Permitted c r ∧ log' = log.after c r

/-- An open descriptor: of a lock file, or of something else. -/
inductive Handle where
  | directory (descriptor : Nat)
  | lock (descriptor : Nat)
  deriving DecidableEq

def Handle.descriptor : Handle → Nat
  | .directory descriptor | .lock descriptor => descriptor

/-- Just the descriptors of these handles are open, and those of locks were opened as such. -/
def Holds (log : Log) (held : Multiset Handle) : Prop :=
  Outstanding log.descriptors (held.map Handle.descriptor) ∧
    ∀ descriptor, .lock descriptor ∈ held → descriptor ∈ log.locks

abbrev Owns (r : Multiset Handle) (p : Opening α) (Q : α → Multiset Handle → Prop)
    (R : Raised → Multiset Handle → Prop) : Prop :=
  Prog.Owns Next Holds r p Q R

abbrev Acquires (p : Opening α) (Q : α → Multiset Handle → Prop) : Prop :=
  Prog.Acquires Next Holds p Q

abbrev Neutral (p : Opening α) : Prop := Prog.Neutral Next Holds p

section Calls

variable {log : Log} {held : Multiset Handle} {c : Call}

theorem holds_empty : Holds .empty 0 := ⟨.nil, fun _ h => absurd h (Multiset.notMem_zero _)⟩

theorem Holds.acquired {h : Handle} {locks : List Nat} (hh : Holds log held)
    (hlocks : log.locks ⊆ locks) (hl : ∀ descriptor, h = .lock descriptor → descriptor ∈ locks) :
    Holds ⟨log.descriptors ++ [.acquired h.descriptor], locks⟩ (held + {h}) := by
  rw [add_comm, Multiset.singleton_add]
  refine ⟨?_, fun descriptor hm => ?_⟩
  · rw [Multiset.map_cons]
    exact hh.1.acquired
  · rcases Multiset.mem_cons.1 hm with he | hm
    · exact hl descriptor he.symm
    · exact hlocks (hh.2 descriptor hm)

theorem Holds.released {h : Handle} (hh : Holds log (held + {h})) :
    Holds { log with descriptors := log.descriptors ++ [.released h.descriptor] } held := by
  rw [add_comm, Multiset.singleton_add] at hh
  refine ⟨?_, fun descriptor hm => hh.2 descriptor (Multiset.mem_cons_of_mem hm)⟩
  have ho := hh.1
  rw [Multiset.map_cons] at ho
  exact ho.released

theorem neutral_invoke (h : ∀ (log : Log) x, log.after c x = log) : Neutral (invoke c) := by
  apply Prog.Owns.invoke
  intro log s x log' hheld hn
  rw [hn.2, h]
  cases x <;> exact ⟨0, rfl, hheld⟩

theorem acquires_openPath (path : PurePath) (flags : List OpenFlag) :
    Acquires (invoke (.openPath path flags))
      fun (descriptor : Nat) h => h = {.directory descriptor} := by
  apply Prog.Owns.invoke
  intro log s x log' hheld hn
  rw [add_zero] at hheld
  rw [hn.2]
  cases x with
  | ok descriptor =>
    change Nat at descriptor
    exact ⟨_, rfl, @Holds.acquired _ _ (.directory descriptor) _ hheld (List.Subset.refl _) nofun⟩
  | error e => exact ⟨0, rfl, (add_zero s).symm ▸ hheld⟩

/-- What a flag list opens. -/
def openedAs (flags : List OpenFlag) (descriptor : Nat) : Handle :=
  if flags = runLockFlags then .lock descriptor else .directory descriptor

theorem acquires_openAt (name : Text) (flags : List OpenFlag) (mode parent : Nat) :
    Acquires (invoke (.openAt name flags mode parent))
      fun (descriptor : Nat) h => h = {openedAs flags descriptor} := by
  apply Prog.Owns.invoke
  intro log s x log' hheld hn
  rw [add_zero] at hheld
  rw [hn.2]
  cases x with
  | ok descriptor =>
    refine ⟨_, rfl, ?_⟩
    change Nat at descriptor
    have hd : (openedAs flags descriptor).descriptor = descriptor := by
      rw [openedAs]
      split <;> rfl
    have hacquired := @Holds.acquired _ _ (openedAs flags descriptor)
      (if flags = runLockFlags then descriptor :: log.locks else log.locks) hheld
    rw [hd] at hacquired
    apply hacquired
    · split
      · exact List.subset_cons_self _ _
      · exact List.Subset.refl _
    · intro lock hl
      rw [openedAs] at hl
      split at hl
      · rename_i hf
        cases hl
        rw [if_pos hf]
        exact List.mem_cons_self
      · cases hl
  | error e => exact ⟨0, rfl, (add_zero s).symm ▸ hheld⟩

theorem owns_close (h : Handle) :
    Owns {h} (invoke (.close h.descriptor)) (fun _ t => t = 0)
      fun e t => t = 0 ∧ e.isOSError = true := by
  apply Prog.Owns.invoke
  intro log s x log' hheld hn
  rw [hn.2]
  have hreleased := hheld.released
  rw [← add_zero s] at hreleased
  cases x with
  | ok v => exact ⟨0, rfl, hreleased⟩
  | error e => exact ⟨0, ⟨rfl, hn.1⟩, hreleased⟩

end Calls

section Closing

variable {R : Raised → Multiset Handle → Prop}

theorem owns_closeEach (handles : List Handle) {first : Option Raised} :
    Owns handles (closeEach first (handles.map Handle.descriptor)) (fun _ t => t = 0) R := by
  induction handles generalizing first with
  | nil => exact Prog.Owns.pure rfl
  | cons h handles ih =>
    have hclose := (owns_close h).frame (handles : Multiset Handle)
    have hcons : (handles : Multiset Handle) + {h} = ↑(h :: handles) := by
      rw [add_comm, Multiset.singleton_add, Multiset.cons_coe]
    rw [hcons] at hclose
    apply hclose.attempt_bind
    · rintro _ t ⟨u, rfl, rfl⟩
      rw [add_zero]
      exact ih
    · rintro e t ⟨u, ⟨rfl, he⟩, rfl⟩
      rw [add_zero]
      dsimp only
      rw [if_pos he]
      cases first with
      | none => exact ih
      | some first => exact ih

theorem owns_closeDescriptors (handles : List Handle) :
    Owns handles (closeDescriptors (handles.map Handle.descriptor)) (fun _ t => t = 0) R := by
  have h := @owns_closeEach R handles.reverse none
  rw [Multiset.coe_reverse, List.map_reverse] at h
  exact h

theorem owns_closeDescriptors_add (handles : List Handle) (r : Multiset Handle) :
    Owns (r + handles) (closeDescriptors (handles.map Handle.descriptor)) (fun _ t => t = r) R := by
  apply ((owns_closeDescriptors handles (R := fun _ _ => False)).frame r).mono
  · rintro _ t ⟨u, rfl, rfl⟩
    exact add_zero r
  · rintro _ t ⟨u, h, _⟩
    exact h.elim

end Closing

section Opening

theorem acquires_openPrivateDirectory (parent : Nat) (name : Text) :
    Acquires (openPrivateDirectory parent name)
      fun descriptor h => h = {.directory descriptor} := by
  have hmake : Neutral ((invoke (.makeDirectory name privateDirectoryMode parent)).attempt >>= fun
      | .ok () => (pure () : Opening Unit)
      | .error e => if isFileExists e then pure () else .throw e) := by
    apply (neutral_invoke fun _ _ => rfl).attempt_bind
    intro x
    cases x with
    | ok => exact Prog.Owns.pure rfl
    | error e =>
      dsimp only
      split
      · exact Prog.Owns.pure rfl
      · exact Prog.Owns.throw rfl
  apply hmake.bind
  intro _
  apply (acquires_openAt name directoryFlags 0o777 parent).bind
  intro descriptor t ht
  have hd : openedAs directoryFlags descriptor = .directory descriptor := if_neg (by decide)
  rw [hd] at ht
  subst ht
  apply ((neutral_invoke fun _ _ => rfl).keeps _).attempt_bind
  · rintro _ t rfl
    exact Prog.Owns.pure rfl
  · rintro e t rfl
    apply (owns_close (.directory descriptor)).attempt_bind
    · rintro _ t rfl
      exact Prog.Owns.throw rfl
    · rintro cleanupError t ⟨rfl, _⟩
      dsimp only
      split
      · exact Prog.Owns.throw rfl
      · exact Prog.Owns.throw rfl

theorem collects_openDirectories (stateRoot : PurePath) :
    TryBlock.Collects Next Holds (fun descriptor => {Handle.directory descriptor})
      (openDirectories stateRoot) fun _ _ => True := by
  have hopened {p : Opening Nat} (h : Acquires p fun descriptor t => t = {.directory descriptor}) :
      TryBlock.Collects Next Holds (fun descriptor => {Handle.directory descriptor})
        (.collect ([·]) p) fun _ _ => True := by
    apply TryBlock.Collects.collect
    apply h.mono
    · rintro descriptor t rfl
      exact ⟨by simp, trivial⟩
    · exact fun _ _ ht => ht
  apply (TryBlock.Collects.perform (neutral_invoke fun _ _ => rfl)).bind (P := fun _ => True)
  intro _ _
  apply (hopened (acquires_openPath stateRoot directoryFlags)).bind (P := fun _ => True)
  intro rootDescriptor _
  apply (hopened (acquires_openPrivateDirectory rootDescriptor _)).bind (P := fun _ => True)
  intro locksDescriptor _
  exact hopened (acquires_openPrivateDirectory locksDescriptor _)

theorem neutral_checkLock (lockPath : PurePath) (lockDescriptor : Nat) :
    Neutral (checkLock lockPath lockDescriptor) := by
  apply (neutral_invoke fun _ _ => rfl).bind
  intro mode
  apply iteInduction (motive := fun p : Opening Unit => Neutral p)
  · exact fun _ => neutral_invoke fun _ _ => rfl
  · exact fun _ => Prog.Owns.throw rfl

/-- The handles of the lock, if it is open. -/
def lockHandles (lockDescriptor : Option Nat) : List Handle := lockDescriptor.toList.map .lock

theorem owns_openLock (lockPath : PurePath) (runId : Text) (runsDescriptor : Nat)
    {R : Raised → Multiset Handle → Prop} :
    Owns 0 (openLock lockPath runId runsDescriptor) (fun out h => h = lockHandles out.2 ∧
      ∀ descriptor, out.1 = .ok descriptor → out.2 = some descriptor) R := by
  apply (acquires_openAt _ runLockFlags privateFileMode runsDescriptor).attempt_bind
  · intro lockDescriptor t ht
    change Nat at lockDescriptor
    subst ht
    apply ((neutral_checkLock lockPath lockDescriptor).keeps _).attempt_bind
    · rintro _ t rfl
      refine Prog.Owns.pure ⟨rfl, fun descriptor hd => ?_⟩
      cases hd
      rfl
    · rintro e t rfl
      exact Prog.Owns.pure ⟨rfl, nofun⟩
  · rintro e t rfl
    exact Prog.Owns.pure ⟨rfl, nofun⟩

end Opening

/-- Whatever is open when the block ends, `finish` leaves the lock open, just where it returns
it. -/
theorem owns_finish (lockPath : PurePath) {outcome : Except Raised Nat} (descriptors : List Nat)
    {lockDescriptor : Option Nat}
    (ho : ∀ descriptor, outcome = .ok descriptor → lockDescriptor = some descriptor) :
    Owns ((descriptors.map Handle.directory : List Handle) + lockHandles lockDescriptor)
      (finish lockPath outcome descriptors lockDescriptor)
      (fun descriptor h => h = {.lock descriptor}) fun _ h => h = 0 := by
  have hclose {r : Multiset Handle} {R : Raised → Multiset Handle → Prop} :
      Owns (r + (descriptors.map Handle.directory : List Handle)) (closeDescriptors descriptors)
        (fun _ t => t = r) R := by
    have h := @owns_closeDescriptors_add R (descriptors.map .directory) r
    rw [List.map_map] at h
    have hid : descriptors.map (Handle.descriptor ∘ Handle.directory) = descriptors := List.map_id _
    rwa [hid] at h
  have hnone {r : Multiset Handle} {R : Raised → Multiset Handle → Prop} :
      Owns r (closeDescriptors []) (fun _ t => t = r) R := Prog.Owns.pure rfl
  cases outcome with
  | ok descriptor =>
    have hlock : lockDescriptor = some descriptor := ho descriptor rfl
    subst hlock
    have hcloseLock {R : Raised → Multiset Handle → Prop} :
        Owns {.lock descriptor} (closeDescriptors [descriptor]) (fun _ t => t = 0) R :=
      owns_closeDescriptors [.lock descriptor]
    apply (@hnone _ _).bind
    rintro lockError t rfl
    rw [add_comm]
    apply (@hclose _ _).bind
    rintro directoryError t rfl
    dsimp only
    split
    · exact Prog.Owns.pure rfl
    · apply hcloseLock.bind
      rintro _ t rfl
      exact Prog.Owns.throw rfl
  | error e =>
    have hcloseLock {r : Multiset Handle} {R : Raised → Multiset Handle → Prop} :
        Owns (r + lockHandles lockDescriptor) (closeDescriptors lockDescriptor.toList)
          (fun _ t => t = r) R := by
      have h := @owns_closeDescriptors_add R (lockHandles lockDescriptor) r
      rw [lockHandles, List.map_map] at h
      have hid : lockDescriptor.toList.map (Handle.descriptor ∘ Handle.lock) =
        lockDescriptor.toList := List.map_id _
      rwa [hid] at h
    apply (@hcloseLock _ _).bind
    rintro lockError t rfl
    rw [← zero_add ((descriptors.map Handle.directory : List Handle) : Multiset Handle)]
    apply (@hclose _ _).bind
    rintro directoryError t rfl
    dsimp only
    split
    · exact Prog.Owns.throw rfl
    · apply (@hnone _ _).bind
      rintro _ t rfl
      exact Prog.Owns.throw rfl

theorem acquires_openRunLock (stateRoot : PurePath) (runId : Text) :
    Acquires (openRunLock stateRoot runId) fun descriptor h => h = {.lock descriptor} := by
  have hsum (descriptors : List Nat) : (descriptors.map fun descriptor =>
      ({Handle.directory descriptor} : Multiset Handle)).sum =
        (descriptors.map Handle.directory : List Handle) := by
    induction descriptors with
    | nil => rfl
    | cons descriptor descriptors ih =>
      rw [List.map_cons, List.sum_cons, ih, Multiset.singleton_add, List.map_cons]
      rfl
  apply Prog.Owns.bind (collects_openDirectories stateRoot [] _)
  rintro ⟨runs, descriptors⟩ t ⟨rfl, _, _⟩
  rw [hsum]
  let lockPath := runLockPath stateRoot runId
  cases runs with
  | error e =>
    have h := @owns_finish lockPath (.error (primaryError lockPath e)) descriptors none nofun
    have hnone : ((lockHandles none : List Handle) : Multiset Handle) = 0 := rfl
    rw [hnone, add_zero] at h
    exact h
  | ok runsDescriptor =>
    have hopen := (@owns_openLock lockPath runId runsDescriptor fun _ _ => False).frame
      (descriptors.map Handle.directory : List Handle)
    rw [add_zero] at hopen
    apply Prog.Owns.bind (hopen.mono (fun _ _ h => h) fun _ _ ⟨_, h, _⟩ => h.elim)
    rintro ⟨outcome, lockDescriptor⟩ t ⟨u, ⟨rfl, ho⟩, rfl⟩
    apply owns_finish
    intro descriptor hd
    cases outcome with
    | ok d =>
      cases hd
      exact ho descriptor rfl
    | error e => cases hd

/-- `_open_run_lock` returns an open lock descriptor, the only one it leaves open, or raises and
leaves none open; what it closed it closed exactly once. -/
theorem openRunLock_settled {stateRoot : PurePath} {runId : Text} {q : Opening Nat} {log : Log}
    (hs : Prog.Steps Next (openRunLock stateRoot runId) .empty q log)
    (ho : q.outcome? = some x) : log.Settled x := by
  have hsafe := acquires_openRunLock stateRoot runId .empty 0 holds_empty
  have hends := hsafe.ends trivial hs ho
  cases x with
  | ok descriptor =>
    obtain ⟨t, rfl, h⟩ := hends
    rw [zero_add] at h
    exact ⟨h.2 descriptor (Multiset.mem_singleton_self _), h.1⟩
  | error e =>
    obtain ⟨t, rfl, h⟩ := hends
    exact h.1.releasedOnce_iff.2 rfl

/-- Descriptors are numbered as the operating system does, and closing the one of `.locks` fails. -/
def sampleReply (log : Log) : (c : Call) → Except Raised (Val c)
  | .makePath .. | .makeDirectory .. | .changeMode .. => .ok ()
  | .openPath .. | .openAt .. => .ok (3 + log.descriptors.length : Nat)
  | .fstat _ => .ok (0o100600 : Nat)
  | .close descriptor =>
    if descriptor = 4 then .error ⟨osError "Input/output error", true, []⟩ else .ok ()

def sampleOpening : Opening Nat × Log :=
  (openRunLock (.ofText (text "/s")) (text "run")).exec
    (fun log c => some (sampleReply log c, log.after c (sampleReply log c))) .empty

/-- When a directory cannot be closed, the lock is closed as well. -/
theorem failed_close_settled : sampleOpening.1.outcome?.isSome ∧
    sampleOpening.2.locks = [6] ∧ ReleasedOnce sampleOpening.2.descriptors := by
  have hs : Prog.Steps Next (openRunLock (.ofText (text "/s")) (text "run")) .empty sampleOpening.1
      sampleOpening.2 := by
    apply Prog.exec_steps
    intro log c r log' h
    cases h
    refine ⟨?_, rfl⟩
    cases c with
    | close descriptor => rw [sampleReply]; split <;> trivial
    | _ => trivial
  have ho : sampleOpening.1.outcome? = some (.error (stateFailure
      (text "Run lease descriptor cleanup failed for /s/.locks/runs/run.lock"))) := by
    decide +kernel
  refine ⟨?_, by decide +kernel, openRunLock_settled hs ho⟩
  rw [ho]
  rfl

end FileRunLease

end GoalRouter
