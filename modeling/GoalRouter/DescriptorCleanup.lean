import GoalRouter.EvidenceInspection
import Mathlib.Data.Multiset.OrderedMonoid

namespace GoalRouter
open Library
set_option autoImplicit true

namespace LocalRepositoryInspector

/-- The end of a thread: whether it returned or raised, and whether the wait was interrupted. -/
structure Settled where
  operation : FilesystemOperation
  returned : Bool
  cancelled : Bool
  deriving DecidableEq

/-- Nothing that is pinned or opened gets lost at the end of the thread. -/
def Settled.keeps (settled : Settled) : Bool :=
  match settled.operation with
  | .pinRequiredDirectory | .openWorktreeEntry => !(settled.returned && settled.cancelled)
  | .pinOptionalRegularFile => settled.returned && !settled.cancelled
  | _ => true

/-- What an inspection did with descriptors, and how its threads ended. -/
structure Log where
  descriptors : List (Ownership Nat)
  settled : List Settled

namespace Log

def empty : Log := ⟨[], []⟩

def event (log : Log) (event : Ownership Nat) : Log :=
  { log with descriptors := log.descriptors ++ [event] }

/-- The answer to a call is logged. A descriptor is released even when closing it fails. -/
def after (log : Log) : (c : Call) → Except Raised (Val c) → Log
  | .openPath .., .ok descriptor => log.event (.acquired descriptor)
  | .openAt .., .ok descriptor => log.event (.acquired descriptor)
  | .duplicate _, .ok descriptor => log.event (.acquired descriptor)
  | .close descriptor, _ => log.event (.released descriptor)
  | .settled operation returned, .ok wait =>
    { log with settled := log.settled ++ [⟨operation, returned, !wait.interruptions.isEmpty⟩] }
  | _, _ => log

/-- No thread that pins or opens something is interrupted as it returns, and the index is pinned. -/
def Undisturbed (log : Log) : Prop := ∀ settled ∈ log.settled, settled.keeps = true

end Log

/-- Whatever a call may answer: closing raises nothing but `OSError`, and a thread ends. -/
def Permitted : (c : Call) → Except Raised (Val c) → Prop
  | .close _, .error e => e.isOSError = true
  | .settled .., .error _ => False
  | _, _ => True

/-- The operating system, the event loop, Git and the hasher answer in any way. -/
def Next : Prog.Answers Val Raised Log := fun log c r log' => Permitted c r ∧ log' = log.after c r

instance (log : Log) : Decidable log.Undisturbed :=
  inferInstanceAs (Decidable (∀ settled ∈ log.settled, settled.keeps = true))

/-- What is held besides what got lost, if something did. -/
def Accounted (log : Log) (held : Multiset Nat) : Prop :=
  ∃ lost, Outstanding log.descriptors (lost + held) ∧ (lost = 0 ↔ log.Undisturbed)

abbrev Owns (r : Multiset Nat) (p : Inspection α) (Q : α → Multiset Nat → Prop)
    (R : Raised → Multiset Nat → Prop) : Prop :=
  Prog.Owns Next Accounted r p Q R

abbrev Acquires (p : Inspection α) (Q : α → Multiset Nat → Prop) : Prop :=
  Prog.Acquires Next Accounted p Q

abbrev Neutral (p : Inspection α) : Prop := Prog.Neutral Next Accounted p

section Calls

variable {log : Log} {held r : Multiset Nat} {c : Call}

/-- A call that is not about a descriptor or a thread. -/
theorem neutral_invoke (h : ∀ (log : Log) x, log.after c x = log) : Neutral (invoke c) := by
  apply Prog.Owns.invoke
  intro log s x log' hheld hn
  rw [hn.2, h]
  cases x <;> exact ⟨0, rfl, hheld⟩

theorem Accounted.acquired (h : Accounted log held) (descriptor : Nat) :
    Accounted (log.event (.acquired descriptor)) (held + {descriptor}) := by
  obtain ⟨lost, ho, hl⟩ := h
  refine ⟨lost, ?_, hl⟩
  rw [← add_assoc, add_comm _ ({descriptor} : Multiset Nat), Multiset.singleton_add]
  exact ho.acquired

theorem Accounted.released {descriptor : Nat} (h : Accounted log (held + {descriptor})) :
    Accounted (log.event (.released descriptor)) held := by
  obtain ⟨lost, ho, hl⟩ := h
  refine ⟨lost, ?_, hl⟩
  rw [← add_assoc, add_comm _ ({descriptor} : Multiset Nat), Multiset.singleton_add] at ho
  exact ho.released

theorem acquires_invoke {f : Val c → Nat}
    (hok : ∀ (log : Log) v, log.after c (.ok v) = log.event (.acquired (f v)))
    (herror : ∀ (log : Log) e, log.after c (.error e) = log) :
    Acquires (invoke c) fun v h => h = {f v} := by
  apply Prog.Owns.invoke
  intro log s x log' hheld hn
  rw [add_zero] at hheld
  rw [hn.2]
  cases x with
  | ok v =>
    rw [hok]
    exact ⟨_, rfl, hheld.acquired (f v)⟩
  | error e =>
    rw [herror]
    exact ⟨0, rfl, (add_zero s).symm ▸ hheld⟩

theorem acquires_openPath (path : PurePath) (directory : Bool) :
    Acquires (invoke (.openPath path directory)) fun (descriptor : Nat) h => h = {descriptor} :=
  @acquires_invoke (.openPath path directory) id (fun _ _ => rfl) fun _ _ => rfl

theorem acquires_openAt (name : Text) (current : Nat) (directory : Bool) :
    Acquires (invoke (.openAt name current directory))
      fun (descriptor : Nat) h => h = {descriptor} :=
  @acquires_invoke (.openAt name current directory) id (fun _ _ => rfl) fun _ _ => rfl

/-- Closing releases the descriptor, whether it fails or not, and fails with an `OSError`. -/
theorem owns_close (descriptor : Nat) :
    Owns {descriptor} (invoke (.close descriptor)) (fun _ h => h = 0)
      fun e h => h = 0 ∧ e.isOSError = true := by
  apply Prog.Owns.invoke
  intro log s x log' hheld hn
  rw [hn.2]
  have hreleased : Accounted (log.event (.released descriptor)) (s + 0) := by
    rw [add_zero]
    exact hheld.released
  cases x with
  | ok v => exact ⟨0, rfl, hreleased⟩
  | error e => exact ⟨0, ⟨rfl, hn.1⟩, hreleased⟩

end Calls

section Combinators

variable {p : Inspection α} {Q : α → Multiset Nat → Prop} {R R' : Raised → Multiset Nat → Prop}
  {r : Multiset Nat}

/-- What is held at the end of a thread gets lost, or is still held. -/
def Ends (operation : FilesystemOperation) (returned cancelled : Bool) (t : Multiset Nat)
    (P : Multiset Nat → Prop) : Prop :=
  if Settled.keeps ⟨operation, returned, cancelled⟩ then P t else t ≠ 0 ∧ P 0

end Combinators

section Closing

theorem owns_closeEach {descriptors : List Nat} {firstError : Option Raised}
    {R : Raised → Multiset Nat → Prop} :
    Owns descriptors (closeEach firstError descriptors) (fun _ h => h = 0) R := by
  induction descriptors generalizing firstError with
  | nil => exact Prog.Owns.pure rfl
  | cons descriptor descriptors ih =>
    have hclose := (owns_close descriptor).frame (descriptors : Multiset Nat)
    have hcons : (descriptors : Multiset Nat) + {descriptor} = ↑(descriptor :: descriptors) := by
      rw [add_comm, Multiset.singleton_add, Multiset.cons_coe]
    rw [hcons] at hclose
    apply hclose.attempt_bind
    · rintro _ t ⟨u, rfl, rfl⟩
      rw [add_zero]
      exact ih
    · rintro e t ⟨u, ⟨rfl, he⟩, rfl⟩
      rw [add_zero]
      dsimp only
      rw [if_pos he]
      exact ih

theorem owns_closeDescriptors (descriptors : List Nat) {R : Raised → Multiset Nat → Prop} :
    Owns descriptors (closeDescriptors descriptors) (fun _ h => h = 0) R := by
  have h := @owns_closeEach descriptors.reverse none R
  rw [Multiset.coe_reverse] at h
  exact h

end Closing

section Pins

def PinnedPath.held (pin : PinnedPath) : Multiset Nat := pin.descriptor.toList

variable {c : Call} {Q : Val c → Multiset Nat → Prop}

end Pins

section Worktree

variable {res : β → Multiset Nat}

abbrev Collects (res : β → Multiset Nat) (m : Body β α) (Q : α → List β → Prop) : Prop :=
  TryBlock.Collects Next Accounted res m Q

/-- Each descriptor of the list is held. -/
abbrev Opens (m : Body Nat α) (Q : α → List Nat → Prop) : Prop :=
  Collects (fun descriptor => {descriptor}) m Q

variable {hexdigest : HashAlgorithm → Bytes → Text} {algorithm : HashAlgorithm}

end Worktree

section Instructions

end Instructions

section Inspect

variable {hexdigest : HashAlgorithm → Bytes → Text}

/-- The repository of the sample runs. -/
def sampleRoot : PurePath := .ofText (text "/w")

def sampleIndex : PurePath := .ofText (text "/w/.git/index")

def directoryFingerprint : FileFingerprint := ⟨1, 2, 0o040755, 4096, 0, 0⟩

def missingFile : Raised :=
  ⟨⟨.other (text "FileNotFoundError"), text "No such file or directory"⟩, true, []⟩

/-- An empty repository. Opening its index fails with the given error. -/
def sampleReply (indexError : Raised) : (c : Call) → Except Raised (Val c)
  | .openPath path _ => if path = sampleIndex then .error indexError else .ok (3 : Nat)
  | .openAt .. => .error missingFile
  | .duplicate _ => .ok (4 : Nat)
  | .close _ => .ok ()
  | .fstat _ => .ok directoryFingerprint
  | .stat path => if path = sampleIndex then .error missingFile else .ok directoryFingerprint
  | .statAt .. => .error missingFile
  | .readlink .. => .error missingFile
  | .readText _ => .error missingFile
  | .resolve path => .ok path
  | .isDirectory _ => .ok true
  | .isFile _ => .ok false
  | .languageCounts _ => .ok ([] : List (Text × Int))
  | .settled .. => .ok (⟨0, [], .singleton _⟩ : ThreadWait)
  | .expired => .ok false
  | .runReadOnly .. => .ok (⟨0, text "/w\n/w/.git\n", []⟩ : CommandResult)
  | .captureGitCommands argvs _ => .ok ⟨argvs.map fun _ => .ok ⟨0, [], []⟩, List.length_map _⟩
  | .hashDescriptors .. => .ok ([] : List Text)

def sampleAnswer (indexError : Raised) (log : Log) (c : Call) :
    Option (Except Raised (Val c) × Log) :=
  some (sampleReply indexError c, log.after c (sampleReply indexError c))

def sampleRun (indexError : Raised) : Inspection RepositoryContext × Log :=
  (inspect (fun _ _ => []) sampleRoot).exec (sampleAnswer indexError) .empty

end Inspect

end LocalRepositoryInspector

end GoalRouter
