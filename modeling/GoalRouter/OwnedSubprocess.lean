import GoalRouter.EvidenceInspection
import GoalRouter.HashHelper
import GoalRouter.InspectionRefinement
import GoalRouter.LeaseSafety
import GoalRouter.Library.ProgramTasks
import GoalRouter.Library.Separators

namespace GoalRouter
open Library
set_option autoImplicit true

namespace OwnedSubprocess

inductive Pipe where
  | stdout
  | stderr
  deriving DecidableEq

/-- The tasks of `_collect_process_output`. -/
inductive CaptureTask where
  | read (pipe : Pipe)
  | wait
  deriving DecidableEq

inductive CaptureCall where
  | read (count : Nat)
  | wait

/-- No more is read than was asked for. -/
def CaptureVal : CaptureCall → Type
  | .read count => { chunk : Bytes // chunk.length ≤ count }
  | .wait => Int

inductive Captured where
  | output (content : Bytes)
  | exit (code : Int)

abbrev CaptureProgram (α : Type) := Prog CaptureVal Raised α

def gitOutputLimitBytes : Nat := 8 * 1024 * 1024

def gitReadChunkBytes : Nat := 64 * 1024

def outputLimitExceeded : Raised := ⟨⟨.other (text "_GitOutputLimitExceeded"), []⟩, false, []⟩

def isOutputLimitExceeded (e : Raised) : Bool :=
  e.error.kind = .other (text "_GitOutputLimitExceeded")

def isCancelled (e : Raised) : Bool := e.error.kind = .cancelledError

/-- `_read_bounded_stream`, once `output` is read. -/
def readBoundedStream (output : Bytes) : CaptureProgram Bytes :=
  .call (.read gitReadChunkBytes) fun
    | .error e => .throw e
    | .ok chunk =>
      if chunk.val = [] then .pure output
      else if output.length + chunk.val.length > gitOutputLimitBytes then .throw outputLimitExceeded
      else readBoundedStream (output ++ chunk.val)
termination_by gitOutputLimitBytes - output.length
decreasing_by
  have := List.length_pos_of_ne_nil ‹chunk.val ≠ []›
  rw [List.length_append]
  omega

def captureProgram : CaptureTask → CaptureProgram Captured
  | .read _ => do return .output (← readBoundedStream [])
  | .wait => do return .exit (← Prog.invoke CaptureCall.wait)

/-- What a process writes into its pipes, and what it exits with. -/
structure Behaviour where
  output : Pipe → Bytes
  code : Int

def Behaviour.OverLimit (b : Behaviour) : Prop :=
  ∃ pipe, gitOutputLimitBytes < (b.output pipe).length

/-- A stream gives some of what is left, nothing only at its end. Every wait may fail or be
cancelled. -/
inductive CaptureNext (code : Int) : Prog.Answers CaptureVal Raised Bytes
  | read {chunk rest : Bytes} (hc : chunk.length ≤ count) (hn : chunk = [] → rest = []) :
      CaptureNext code (chunk ++ rest) (.read count) (.ok ⟨chunk, hc⟩) rest
  | waited : CaptureNext code left .wait (.ok code) left
  | failed (he : isOutputLimitExceeded e = false) : CaptureNext code left c (.error e) left

abbrev Capture :=
  TaskGroup CaptureTask (TaskGroup.Programs CaptureTask CaptureVal Raised Bytes Captured) Raised

def captureTasks : List CaptureTask := [.read .stdout, .read .stderr, .wait]

/-- What the tasks of a group begin with. -/
def captureStore (b : Behaviour) :
    TaskGroup.Programs CaptureTask CaptureVal Raised Bytes Captured
  | .read pipe => (captureProgram (.read pipe), b.output pipe)
  | .wait => (captureProgram .wait, [])

/-- The runs of the group while nobody else cancels it or its tasks. -/
abbrev CaptureRuns (b : Behaviour) : Capture → Capture → Prop :=
  TaskGroup.OwnRuns captureTasks (CaptureNext b.code) isCancelled

/-- What escapes from the communication: an exception, or a group of them. -/
inductive CaptureError where
  | alone (e : Raised)
  | group (errors : List Raised)

/-- The exception is one of the limit, or has one in its group. -/
def CaptureError.exceedsLimit : CaptureError → Bool
  | .alone e => isOutputLimitExceeded e
  | .group errors => errors.any isOutputLimitExceeded

/-- `task.result()` of a reader. -/
def readerOutput (g : Capture) (pipe : Pipe) : Except CaptureError Bytes :=
  match (g.store (.read pipe)).1 with
  | .pure (.output content) => .ok content
  | .throw e => .error (.alone e)
  | _ => .error (.alone ⟨⟨.other (text "InvalidStateError"), text "Result is not set."⟩, false, []⟩)

/-- `_collect_process_output`, once its group is left. -/
def collectProcessOutput (g : Capture) : Option (Except CaptureError (Bytes × Bytes)) :=
  match g.exited with
  | none => none
  | some .cancelled => some (.error (.alone ⟨.cancelled, false, []⟩))
  | some (.raised errors) => some (.error (.group errors))
  | some .returned => some do
    let stdout ← readerOutput g .stdout
    let stderr ← readerOutput g .stderr
    return (stdout, stderr)

/-- A process to start in a session of its own, with its output piped. -/
structure Command where
  argv : List Text
  cwd : PurePath
  environment : List (Text × Text)
  passed : List Nat

inductive ProcessCall where
  /-- Start the process, and the task that communicates with it. -/
  | spawn (command : Command)
  /-- `await asyncio.shield(communication)` -/
  | capture
  | returncode
  | killProcessGroup
  /-- The communication is cancelled, and waited for. -/
  | endCommunication
  /-- A task of its own waits for the process, and is waited for. -/
  | reap

def ProcessVal : ProcessCall → Type
  | .spawn _ | .killProcessGroup => Unit
  | .capture => Except CaptureError (Bytes × Bytes)
  | .returncode => Option Int
  | .endCommunication => OwnedTask (Bytes × Bytes)
  | .reap => OwnedTask Int

abbrev ProcessProgram (α : Type) := Prog ProcessVal Raised α

def invoke (c : ProcessCall) : ProcessProgram (ProcessVal c) := Prog.invoke c

/-- `_kill_process_group` while the process has not exited, and the error that is kept of it. -/
def killUnlessExited (returncode : Option Int) : ProcessProgram (Option Raised) :=
  if returncode.isSome then .pure none
  else
    (invoke .killProcessGroup).attempt >>= fun
      | .ok _ => pure none
      | .error e =>
        pure (if e.error.kind = .other (text "ProcessLookupError") then none else some e)

def withReapError (cleanupError : Option Raised) : Except Raised Int → Option Raised
  | .ok _ => cleanupError
  | .error e =>
    match cleanupError with
    | none => some e
    | some first => some (first.addNote (text "Git process reap also failed: " ++ e.message))

def stopAndReapProcess : ProcessProgram (List Raised × Option Raised) := do
  let returncode : Option Int ← invoke .returncode
  let cleanupError ← killUnlessExited returncode
  let communication : OwnedTask (Bytes × Bytes) ← invoke .endCommunication
  let reap : OwnedTask Int ← invoke .reap
  return (waitForOwnedTask communication ++ waitForOwnedTask reap,
    withReapError cleanupError reap.result)

def repositoryFailure (message : String) : Raised := ⟨repositoryError message, false, []⟩

def limitFailure : Raised :=
  repositoryFailure "Repository Git inspection output exceeded safe limit"

/-- What the owners of a process differ in. A failed capture is no cancellation, a cancellation
after one only gets notes, and the limit is blamed only for an exception of the limit. -/
structure Owner where
  operation : Text
  mapped : CaptureError → Raised
  afterFailure : Raised → Option Raised → Raised → Raised
  mapped_kind : ∀ error, (mapped error).error.kind = .repositoryError
  mapped_limit : ∀ error, (mapped error).error = limitFailure.error →
    error.exceedsLimit = true ∨ ∃ e, error = .alone e ∧ e.error = limitFailure.error
  afterFailure_error : ∀ mapped cleanupError e, (afterFailure mapped cleanupError e).error = e.error

def Owner.noted (owner : Owner) (cleanupError : Option Raised) (e : Raised) : Raised :=
  match cleanupError with
  | none => e
  | some cleanup => e.addNote (owner.operation ++ text " failed: " ++ cleanup.message)

/-- What is raised for a failed capture: the failure, or a cancellation that came after it. -/
def Owner.failed (owner : Owner) (mapped : Raised) (cleanupError : Option Raised) :
    List Raised → Raised
  | [] => owner.noted cleanupError mapped
  | c :: cs => owner.afterFailure mapped cleanupError (prepareCancellation c cs owner.operation)

/-- What is raised once the process is stopped. -/
def Owner.raised (owner : Owner) (cancellations : List Raised) (cleanupError : Option Raised) :
    CaptureError → Raised
  | .group errors => owner.failed (owner.mapped (.group errors)) cleanupError cancellations
  | .alone e =>
    if isCancelled e then
      prepareCancellation (owner.noted cleanupError e) cancellations owner.operation
    else owner.failed (owner.mapped (.alone e)) cleanupError cancellations

/-- The outputs of the process, or an exception once the process is stopped. -/
def captureOwned (owner : Owner) : ProcessProgram (Bytes × Bytes) := do
  let captured : Except CaptureError (Bytes × Bytes) ← invoke .capture
  match captured with
  | .ok outputs => return outputs
  | .error error =>
    let (cancellations, cleanupError) ← stopAndReapProcess
    .throw (owner.raised cancellations cleanupError error)

/-- An `OSError` of the start is a `RepositoryError`. -/
def spawn (command : Command) (message : String) : ProcessProgram Unit :=
  (invoke (.spawn command)).attempt >>= fun
    | .ok _ => pure ()
    | .error e => .throw (if e.isOSError then repositoryFailure message else e)

/-- `_map_git_capture_error` -/
def mapGitCaptureError (error : CaptureError) : Raised :=
  let other := repositoryFailure "Cannot capture Git repository inspection output"
  if error.exceedsLimit then limitFailure
  else match error with
    | .group _ => other
    | .alone e => if e.error.kind = .repositoryError then e else other

theorem mapGitCaptureError_kind (error : CaptureError) :
    (mapGitCaptureError error).error.kind = .repositoryError := by
  unfold mapGitCaptureError
  dsimp only
  split
  · rfl
  · cases error with
    | group errors => rfl
    | alone e =>
      dsimp only
      split
      · assumption
      · rfl

theorem mapGitCaptureError_limit (error : CaptureError)
    (h : (mapGitCaptureError error).error = limitFailure.error) :
    error.exceedsLimit = true ∨ ∃ e, error = .alone e ∧ e.error = limitFailure.error := by
  have hother : (repositoryFailure "Cannot capture Git repository inspection output").error ≠
      limitFailure.error := by decide
  unfold mapGitCaptureError at h
  dsimp only at h
  split at h
  · left
    assumption
  · cases error with
    | group errors => exact absurd h hother
    | alone e =>
      dsimp only at h
      split at h
      · exact .inr ⟨e, rfl, h⟩
      · exact absurd h hother

/-- The notes on a cancellation after a failed capture. -/
def noteGitFailure (mapped : Raised) (cleanupError : Option Raised) (cancellation : Raised) :
    Raised :=
  let cancellation := cancellation.addNote
    (text "Git subprocess capture failed before cancellation: " ++ mapped.message)
  match cleanupError with
  | none => cancellation
  | some cleanup =>
    cancellation.addNote (text "Git subprocess cleanup failed: " ++ cleanup.message)

def gitOwner : Owner where
  operation := text "Git subprocess cleanup"
  mapped := mapGitCaptureError
  afterFailure := noteGitFailure
  mapped_kind := mapGitCaptureError_kind
  mapped_limit := mapGitCaptureError_limit
  afterFailure_error _ cleanupError _ := by cases cleanupError <;> rfl

def gitEnvironment : List (Text × Text) :=
  [("GIT_CONFIG_COUNT", "0"), ("GIT_CONFIG_GLOBAL", "/dev/null"), ("GIT_CONFIG_NOSYSTEM", "1"),
    ("GIT_CONFIG_SYSTEM", "/dev/null"), ("GIT_EXEC_PATH", "/usr/libexec/git-core"),
    ("GIT_NO_LAZY_FETCH", "1"), ("GIT_NO_REPLACE_OBJECTS", "1"), ("GIT_OPTIONAL_LOCKS", "0"),
    ("GIT_PAGER", "cat"), ("GIT_PROTOCOL_FROM_USER", "0"), ("GIT_TERMINAL_PROMPT", "0"),
    ("HOME", "/nonexistent"), ("LC_ALL", "C"), ("PAGER", "cat"), ("PATH", "/usr/bin:/bin")].map
    fun field => (text field.1, text field.2)

def isContinuation (b : UInt8) : Bool := 0x80 ≤ b && b ≤ 0xBF

/-- The code point of the UTF-8 sequence that begins with `b`, and how many bytes follow `b`. -/
def utf8Sequence (b : UInt8) (rest : Bytes) : Option (Nat × Nat) :=
  if b < 0x80 then some (b.toNat, 0)
  else match rest.takeWhile isContinuation with
    | [] => none
    | b₁ :: following =>
      if 0xC2 ≤ b && b ≤ 0xDF then some (b.toNat % 32 * 64 + b₁.toNat % 64, 1)
      else match following with
        | [] => none
        | b₂ :: following =>
          let three := (b.toNat % 16 * 64 + b₁.toNat % 64) * 64 + b₂.toNat % 64
          if 0xE0 ≤ b && b ≤ 0xEF then
            if three < 0x800 || (0xD800 ≤ three && three ≤ 0xDFFF) then none else some (three, 2)
          else match following with
            | [] => none
            | b₃ :: _ =>
              let four := (b.toNat % 8 * 64 + b₁.toNat % 64) * 4096 +
                b₂.toNat % 64 * 64 + b₃.toNat % 64
              if 0xF0 ≤ b && b ≤ 0xF4 && 0x10000 ≤ four && four ≤ 0x10FFFF then some (four, 3)
              else none

/-- `bytes.decode("utf-8", errors="surrogateescape")`: a byte that begins no sequence becomes a
low surrogate. -/
def decodeSurrogateEscape : Bytes → Text
  | [] => []
  | b :: rest =>
    match utf8Sequence b rest with
    | some (c, following) => Fin.ofNat 0x110000 c :: decodeSurrogateEscape (rest.drop following)
    | none => Fin.ofNat 0x110000 (0xDC00 + b.toNat) :: decodeSurrogateEscape rest
termination_by bytes => bytes.length
decreasing_by
  · rw [List.length_drop, List.length_cons]
    omega
  · exact Nat.lt_succ_self _

namespace LocalCommandRunner

/-- The result of a command that has printed so. -/
def resultFrom : Bytes × Bytes → ProcessProgram CommandResult
  | (stdout, stderr) => do
    let returncode : Option Int ← invoke .returncode
    return ⟨returncode.getD 0, decodeSurrogateEscape stdout, decodeSurrogateEscape stderr⟩

def runReadOnly (argv : List Text) (cwd : PurePath) : ProcessProgram CommandResult := do
  spawn ⟨argv, cwd, gitEnvironment, []⟩ "Cannot start Git repository inspection"
  let outputs ← captureOwned gitOwner
  resultFrom outputs

end LocalCommandRunner

namespace LocalBlobHasher

def hashOwner : Owner where
  operation := text "Worktree hash subprocess cleanup"
  mapped _ := repositoryFailure "Cannot capture tracked worktree hash"
  afterFailure _ _ cancellation :=
    cancellation.addNote (text "Worktree hash capture failed before cancellation")
  mapped_kind _ := rfl
  mapped_limit _ h := absurd h (by decide)
  afterFailure_error _ _ _ := rfl

def hashHelperEnvironment : List (Text × Text) :=
  [("HOME", "/nonexistent"), ("LC_ALL", "C"), ("PATH", "/usr/bin:/bin")].map
    fun field => (text field.1, text field.2)

/-- The command of the hash helper. -/
def helperCommand (executable : Text) (algorithm : HashAlgorithm) (requests : List HelperRequest) :
    Command where
  argv := [executable, text "-I", text "-B", text "-m", text "goalrouter.hash_helper"] ++
    helperArguments algorithm requests
  cwd := PurePath.ofText (text "/")
  environment := hashHelperEnvironment
  passed := requests.map HelperRequest.descriptor

/-- `bytes.decode("ascii")` -/
def decodeAscii (bytes : Bytes) : Option Text :=
  if bytes.all fun b => b < 0x80 then some (bytes.map fun b => Fin.ofNat 0x110000 b.toNat)
  else none

def isHexDigit (c : CodePoint) : Bool := (48 ≤ c.val && c.val ≤ 57) || (97 ≤ c.val && c.val ≤ 102)

def digestLength : HashAlgorithm → Nat
  | .sha1 => 40
  | .sha256 => 64

/-- The digests that the helper has printed, if nothing else is printed and it has succeeded. -/
def digestsOf (algorithm : HashAlgorithm) (count : Nat) (returncode : Option Int) (output : Text)
    (stderr : Bytes) : Except Raised (List Text) :=
  let digests := LocalRepositoryInspector.splitLines [] false output
  if returncode ≠ some 0 ∨ stderr ≠ [] ∨ digests.length ≠ count ∨
      (∃ digest ∈ digests, digest.length ≠ digestLength algorithm) ∨
      (∃ digest ∈ digests, ∃ c ∈ digest, isHexDigit c = false) ∨
      output ≠ digests.flatMap fun digest => digest ++ [0x0A] then
    .error (repositoryFailure "Tracked worktree hashing failed")
  else .ok digests

/-- The digests of a helper that has printed so. -/
def digestsFrom (requests : List HelperRequest) (algorithm : HashAlgorithm) :
    Bytes × Bytes → ProcessProgram (List Text)
  | (stdout, stderr) =>
    match decodeAscii stdout with
    | none => .throw (repositoryFailure "Tracked worktree hashing returned invalid output")
    | some output => do
      let returncode : Option Int ← invoke .returncode
      Prog.ofExcept (digestsOf algorithm requests.length returncode output stderr)

def hashDescriptors (executable : Text) (requests : List HelperRequest)
    (algorithm : HashAlgorithm) : ProcessProgram (List Text) :=
  if requests = [] ∨ requests.length > blobHashBatchMax then
    .throw (repositoryFailure "Invalid tracked worktree hashing request")
  else do
    spawn (helperCommand executable algorithm requests) "Cannot start tracked worktree hashing"
    let outputs ← captureOwned hashOwner
    digestsFrom requests algorithm outputs

end LocalBlobHasher

section Reading

variable {code : Int} {left : Bytes}

/-- However a stream is chunked, what is read of it is all of it, and within the limit. -/
theorem readBoundedStream_reads (output left : Bytes)
    (ho : output.length ≤ gitOutputLimitBytes) :
    (readBoundedStream output).Safe (CaptureNext code) (fun _ => True)
      (fun content _ => content = output ++ left ∧ content.length ≤ gitOutputLimitBytes)
      (fun e _ => isOutputLimitExceeded e = true →
        gitOutputLimitBytes < (output ++ left).length) left := by
  induction hn : gitOutputLimitBytes - output.length using Nat.strong_induction_on
    generalizing output left with
  | _ n ih =>
    rw [readBoundedStream]
    intro r left' hnext
    refine ⟨trivial, ?_⟩
    cases hnext with
    | failed he =>
      intro h
      rw [he] at h
      cases h
    | @read _ chunk rest hc hempty =>
      dsimp only
      by_cases hchunk : chunk = []
      · rw [if_pos hchunk, hchunk, hempty hchunk]
        exact ⟨(List.append_nil output).symm, ho⟩
      · have hpos := List.length_pos_of_ne_nil hchunk
        rw [if_neg hchunk]
        split
        · rename_i hlimit
          intro _
          rw [← List.append_assoc, List.length_append, List.length_append]
          omega
        · rename_i hlimit
          have hle : (output ++ chunk).length ≤ gitOutputLimitBytes := by
            rw [List.length_append]
            omega
          have hlt : gitOutputLimitBytes - (output ++ chunk).length < n := by
            rw [List.length_append]
            omega
          have hrest := ih _ hlt (output ++ chunk) left' hle rfl
          rwa [List.append_assoc] at hrest

/-- The reader of a pipe returns only with everything that the process has written into it, and
raises the exception of the limit only if that is over the limit. -/
theorem reader_reads (code : Int) (pipe : Pipe) (left : Bytes) :
    (captureProgram (.read pipe)).Safe (CaptureNext code) (fun _ => True)
      (fun a _ => a = .output left ∧ left.length ≤ gitOutputLimitBytes)
      (fun e _ => isOutputLimitExceeded e = true → gitOutputLimitBytes < left.length) left := by
  apply (@readBoundedStream_reads code [] left (Nat.zero_le _)).bind
  rintro content w ⟨rfl, hlimit⟩
  exact ⟨rfl, hlimit⟩

theorem wait_waits (code : Int) (left : Bytes) :
    (captureProgram .wait).Safe (CaptureNext code) (fun _ => True)
      (fun a _ => ∃ c, a = .exit c) (fun e _ => isOutputLimitExceeded e = false) left := by
  intro r w' hn
  refine ⟨trivial, ?_⟩
  cases hn with
  | waited => exact ⟨code, rfl⟩
  | failed he => exact he

theorem captureStore_pending (b : Behaviour) (i : CaptureTask) :
    ((captureStore b i).1.outcome?) = none := by
  cases i with
  | read pipe =>
    change (captureProgram (.read pipe)).outcome? = none
    rw [captureProgram, readBoundedStream]
    rfl
  | wait => rfl

variable {b : Behaviour} {g : Capture}

theorem readerOutput_eq (hr : CaptureRuns b (.start (captureStore b)) g)
    (hx : g.exited = some .returned) (pipe : Pipe) :
    readerOutput g pipe = .ok (b.output pipe) ∧
      (b.output pipe).length ≤ gitOutputLimitBytes := by
  have hm : CaptureTask.read pipe ∈ captureTasks := by cases pipe <;> decide
  obtain ⟨a, w, hs, hentry⟩ := hr.returned (List.cons_ne_nil _ _)
    (fun i _ => captureStore_pending b i) hx hm
  obtain ⟨rfl, hle⟩ := ((reader_reads b.code pipe (b.output pipe)).returns trivial hs).2
  refine ⟨?_, hle⟩
  rw [readerOutput, hentry]

/-- However the reads and the wait interleave, only whole outputs within the limit are returned. -/
theorem collectProcessOutput_returns (hr : CaptureRuns b (.start (captureStore b)) g)
    (hc : collectProcessOutput g = some (.ok (stdout, stderr))) :
    g.exited = some .returned ∧ (stdout = b.output .stdout ∧ stderr = b.output .stderr) ∧
      ∀ pipe, (b.output pipe).length ≤ gitOutputLimitBytes := by
  have hx : g.exited = some .returned := by
    rw [collectProcessOutput] at hc
    split at hc
    · cases hc
    · cases hc
    · cases hc
    · assumption
  have hreader := readerOutput_eq hr hx
  rw [collectProcessOutput, hx] at hc
  simp only [(hreader _).1] at hc
  cases hc
  exact ⟨hx, ⟨rfl, rfl⟩, fun pipe => (hreader pipe).2⟩

/-- A communication fails with an exception of the limit only if an output is over it, and otherwise
with a group of exceptions or a cancellation. -/
theorem collectProcessOutput_fails {error : CaptureError}
    (hr : CaptureRuns b (.start (captureStore b)) g)
    (hc : collectProcessOutput g = some (.error error)) :
    (error.exceedsLimit = true → b.OverLimit) ∧
      ∀ e, error = .alone e → isCancelled e = true := by
  rw [collectProcessOutput] at hc
  split at hc
  · cases hc
  · cases hc
    refine ⟨nofun, fun e he => ?_⟩
    cases he
    rfl
  · rename_i errors hx
    cases hc
    refine ⟨fun hlimit => ?_, nofun⟩
    obtain ⟨e, hmem, he⟩ := List.any_eq_true.1 hlimit
    obtain ⟨-, hraised⟩ := hr.runs.programs_raised (List.cons_ne_nil _ _)
      (fun i _ => captureStore_pending b i) hx
    obtain ⟨i, -, w, hs⟩ := hraised e hmem
    cases i with
    | read pipe => exact ⟨pipe, ((reader_reads b.code pipe (b.output pipe)).steps trivial hs).2 he⟩
    | wait =>
      have hnot : isOutputLimitExceeded e = false := ((wait_waits b.code []).steps trivial hs).2
      rw [he] at hnot
      cases hnot
  · rename_i hx
    have hreader := readerOutput_eq hr hx
    simp only [(hreader _).1] at hc
    cases hc

theorem wait_returns (hr : CaptureRuns b (.start (captureStore b)) g)
    (hx : g.exited = some .returned) : ∃ c w, g.store .wait = (.pure (.exit c), w) := by
  have hm : CaptureTask.wait ∈ captureTasks := by decide
  obtain ⟨a, w, hs, hentry⟩ := hr.returned (List.cons_ne_nil _ _)
    (fun i _ => captureStore_pending b i) hx hm
  obtain ⟨c, rfl⟩ := ((wait_waits b.code []).returns trivial hs).2
  exact ⟨c, w, hentry⟩

end Reading

/-- What is known of a process. `kills` has what was known of its exit when it was signalled. -/
structure ProcessWorld where
  started : Bool
  capture : Capture
  communicating : Bool
  returncode : Option Int
  kills : List (Option Int)
  cancellations : List Raised
  reapFailed : Bool

namespace ProcessWorld

def initial (b : Behaviour) : ProcessWorld :=
  ⟨false, .start (captureStore b), false, none, [], [], false⟩

/-- The process is killed at most once, and only while nobody has waited for it. -/
def KillsOnce (w : ProcessWorld) : Prop := w.kills = [] ∨ w.kills = [none]

/-- The communication is over and the process waited for, unless that failed. It was killed, or it
had exited by itself. -/
structure Stopped (w : ProcessWorld) : Prop where
  communicated : w.communicating = false
  reaped : w.returncode.isSome = true ∨ w.reapFailed = true
  killed : w.kills = [none] ∨ w.kills = [] ∧ w.returncode.isSome = true

/-- An owner ends so: it leaves nothing behind, swallows no cancellation, raises its own errors and
cancellations only, and blames the limit only for an output over it. -/
structure Left (b : Behaviour) (w : ProcessWorld) (x : Except Raised α) : Prop where
  stopped : w.started = true → w.Stopped
  cancelled : w.cancellations ≠ [] → ∃ e, x = .error e ∧ isCancelled e = true
  escapes : w.started = true → ∀ e, x = .error e →
    isCancelled e = true ∨ e.error.kind = .repositoryError
  limit : w.started = true → ∀ e, x = .error e → e.error = limitFailure.error → b.OverLimit

/-- The process is started, and nothing has been done about it yet. -/
structure Spawned (b : Behaviour) (w : ProcessWorld) : Prop where
  capture : w.capture = .start (captureStore b)
  kills : w.kills = []
  cancellations : w.cancellations = []

/-- A capture returns so: with the whole outputs of a process that has exited. -/
structure Complete (b : Behaviour) (outputs : Bytes × Bytes) (w : ProcessWorld) : Prop where
  stdout : outputs.1 = b.output .stdout
  stderr : outputs.2 = b.output .stderr
  limited : ∀ pipe, (b.output pipe).length ≤ gitOutputLimitBytes
  returncode : w.returncode = some b.code
  stopped : w.Stopped
  uncancelled : w.cancellations = []

end ProcessWorld

/-- A wait may bring the exit of the process to light. -/
def Learns (b : Behaviour) (code code' : Option Int) : Prop := code' = code ∨ code' = some b.code

theorem Learns.isSome {code code' : Option Int} (h : Learns b code code')
    (hs : code.isSome = true) : code'.isSome = true := by
  rcases h with rfl | rfl
  · exact hs
  · rfl

/-- A task that its owner waits for through every request, each a cancellation. -/
structure WaitedFor (task : OwnedTask α) : Prop where
  waited : task.IsWaitedFor
  cancelled : ∀ i ∈ task.interruptions, isCancelled i.error = true

def delivered (task : OwnedTask α) : List Raised := task.interruptions.map Interruption.error

def pipesUnavailable : Raised := repositoryFailure "Git subprocess capture pipes are unavailable"

/-- Every call may fail or be interrupted by a cancellation of the owner. Only the group's own tasks
tell how the communication ends, and where its task has the exit code, the process knows it. -/
inductive ProcessNext (b : Behaviour) : Prog.Answers ProcessVal Raised ProcessWorld
  | started {command : Command} : ProcessNext b w (.spawn command) (.ok ())
      { w with started := true, communicating := true }
  | notStarted {command : Command} (he : isCancelled e = false) :
      ProcessNext b w (.spawn command) (.error e) w
  | startCancelled {command : Command} (he : isCancelled e = true) (ho : e.isOSError = false) :
      ProcessNext b w (.spawn command) (.error e)
      { w with cancellations := w.cancellations ++ [e] }
  | captured {captured : Except CaptureError (Bytes × Bytes)} (hr : CaptureRuns b w.capture g)
      (hc : collectProcessOutput g = some captured) (hl : Learns b w.returncode code)
      (hk : ∀ c left, g.store .wait = (.pure (.exit c), left) → code = some b.code) :
      ProcessNext b w .capture (.ok captured)
        { w with capture := g, communicating := false, returncode := code }
  | unpiped : ProcessNext b w .capture (.ok (.error (.alone pipesUnavailable)))
      { w with communicating := false }
  | interrupted (he : isCancelled e = true) (hr : CaptureRuns b w.capture g)
      (hl : Learns b w.returncode code) :
      ProcessNext b w .capture (.ok (.error (.alone e)))
        { w with capture := g, returncode := code, cancellations := w.cancellations ++ [e] }
  | returncode : ProcessNext b w .returncode (.ok w.returncode) w
  | killed : ProcessNext b w .killProcessGroup r { w with kills := w.returncode :: w.kills }
  | ended {task : OwnedTask (Bytes × Bytes)} (ht : WaitedFor task)
      (hl : Learns b w.returncode code) :
      ProcessNext b w .endCommunication (.ok task)
        { w with communicating := false, returncode := code
                 cancellations := w.cancellations ++ delivered task }
  | reaped {task : OwnedTask Int} (ht : WaitedFor task) (hr : task.result = .ok b.code) :
      ProcessNext b w .reap (.ok task)
        { w with returncode := some b.code, cancellations := w.cancellations ++ delivered task }
  | unreaped {task : OwnedTask Int} (ht : WaitedFor task) (hr : task.result = .error e)
      (hl : Learns b w.returncode code) :
      ProcessNext b w .reap (.ok task)
        { w with reapFailed := true, returncode := code
                 cancellations := w.cancellations ++ delivered task }

section Cancelling

theorem waitLoop_cancelled {observed : Nat} {interruptions : List Interruption}
    (h : ∀ i ∈ interruptions, isCancelled i.error = true) :
    ∀ e ∈ waitLoop observed interruptions, isCancelled e = true := by
  induction interruptions generalizing observed with
  | nil => exact nofun
  | cons i rest ih =>
    rw [waitLoop]
    dsimp only
    intro e he
    split at he
    · cases he
    · rcases List.mem_cons.1 he with rfl | he
      · have hi := h i List.mem_cons_self
        split
        · exact hi
        · exact hi
      · exact ih (fun j hj => h j (List.mem_cons_of_mem i hj)) e he

theorem WaitedFor.cancellations {task : OwnedTask α} (h : WaitedFor task) :
    (waitForOwnedTask task = [] ↔ delivered task = []) ∧
      ∀ e ∈ waitForOwnedTask task, isCancelled e = true := by
  refine ⟨?_, waitLoop_cancelled h.cancelled⟩
  rw [waitForOwnedTask_eq_nil h.waited, delivered, List.map_eq_nil_iff]

theorem foldl_addNote_error (notes : List Text) (note : Text → Text) (e : Raised) :
    (notes.foldl (fun e n => e.addNote (note n)) e).error = e.error := by
  induction notes generalizing e with
  | nil => rfl
  | cons n notes ih => exact ih (e.addNote (note n))

/-- Combining cancellations only adds notes to the first. -/
theorem prepareCancellation_error (primary : Raised) (others : List Raised) (operation : Text) :
    (prepareCancellation primary others operation).error = primary.error := by
  rw [prepareCancellation]
  induction others generalizing primary with
  | nil => rfl
  | cons additional others ih =>
    rw [List.foldl_cons, ih, foldl_addNote_error]
    rfl

theorem Owner.noted_error (owner : Owner) (cleanupError : Option Raised) (e : Raised) :
    (owner.noted cleanupError e).error = e.error := by
  cases cleanupError <;> rfl

theorem Owner.failed_cancelled (owner : Owner) (mapped : Raised) (cleanupError : Option Raised)
    {cancellations : List Raised} (hc : ∀ e ∈ cancellations, isCancelled e = true)
    (h : cancellations ≠ []) :
    isCancelled (owner.failed mapped cleanupError cancellations) = true := by
  cases cancellations with
  | nil => exact absurd rfl h
  | cons c cs =>
    rw [isCancelled, failed, owner.afterFailure_error, prepareCancellation_error]
    exact hc c List.mem_cons_self

theorem Owner.raised_cancelled (owner : Owner) {error : CaptureError} {cancellations : List Raised}
    (cleanupError : Option Raised) (hc : ∀ e ∈ cancellations, isCancelled e = true)
    (h : (∃ e, error = .alone e ∧ isCancelled e = true) ∨ cancellations ≠ []) :
    isCancelled (owner.raised cancellations cleanupError error) = true := by
  cases error with
  | group errors =>
    rcases h with ⟨e, he, -⟩ | hne
    · cases he
    · exact owner.failed_cancelled _ cleanupError hc hne
  | alone e =>
    rw [raised]
    split
    · rename_i he
      rw [isCancelled, prepareCancellation_error, owner.noted_error]
      exact he
    · rename_i he
      rcases h with ⟨e', he', hcancelled⟩ | hne
      · cases he'
        exact absurd hcancelled he
      · exact owner.failed_cancelled _ cleanupError hc hne

theorem Owner.raised_kind (owner : Owner) (error : CaptureError) {cancellations : List Raised}
    (cleanupError : Option Raised) (hc : ∀ e ∈ cancellations, isCancelled e = true) :
    isCancelled (owner.raised cancellations cleanupError error) = true ∨
      (owner.raised cancellations cleanupError error).error.kind = .repositoryError := by
  by_cases hne : cancellations = []
  · subst hne
    cases error with
    | group errors =>
      right
      rw [raised, failed, owner.noted_error]
      exact owner.mapped_kind _
    | alone e =>
      rw [raised]
      split
      · rename_i he
        left
        rw [isCancelled, prepareCancellation_error, owner.noted_error]
        exact he
      · right
        rw [failed, owner.noted_error]
        exact owner.mapped_kind _
  · exact .inl (owner.raised_cancelled cleanupError hc (.inr hne))

end Cancelling

section Owning

variable {b : Behaviour} {w : ProcessWorld}

theorem returncode_safe {Q : Option Int → ProcessWorld → Prop} (hI : w.KillsOnce)
    (hQ : Q w.returncode w) :
    (invoke .returncode).Safe (ProcessNext b) ProcessWorld.KillsOnce Q (fun _ _ => False) w := by
  apply Prog.Safe.invoke
  intro r w' hn
  cases hn
  exact ⟨hI, hQ⟩

/-- Once it is known whether the process has exited, it is killed if not. -/
theorem kill_safe (hk : w.kills = []) :
    (killUnlessExited w.returncode).Safe (ProcessNext b) ProcessWorld.KillsOnce
      (fun _ w' => ∃ kills, w' = { w with kills := kills } ∧
        (kills = [none] ∨ kills = [] ∧ w.returncode.isSome = true))
      (fun _ _ => False) w := by
  rw [killUnlessExited]
  split
  · rename_i hs
    exact ⟨[], by rw [← hk], .inr ⟨rfl, hs⟩⟩
  · rename_i hs
    rw [Bool.not_eq_true, Option.isSome_eq_false_iff, Option.isNone_iff_eq_none] at hs
    apply Prog.Safe.attempt_bind (Q := fun _ w' => w' = { w with kills := [none] })
      (R := fun _ w' => w' = { w with kills := [none] })
    · apply Prog.Safe.invoke
      intro r w' hn
      cases hn
      rw [hs, hk]
      cases r with
      | ok _ => exact ⟨.inr rfl, rfl⟩
      | error _ => exact ⟨.inr rfl, rfl⟩
    · intro r w' hr
      cases r with
      | ok _ => exact ⟨_, hr, .inl rfl⟩
      | error _ => exact ⟨_, hr, .inl rfl⟩

/-- The communication is over once its task is waited for. -/
theorem endCommunication_safe (hI : w.KillsOnce) :
    (invoke .endCommunication).Safe (ProcessNext b) ProcessWorld.KillsOnce
      (fun (task : OwnedTask (Bytes × Bytes)) w' => WaitedFor task ∧
        ∃ code, Learns b w.returncode code ∧ w' = { w with
          communicating := false, returncode := code
          cancellations := w.cancellations ++ delivered task })
      (fun _ _ => False) w := by
  apply Prog.Safe.invoke
  intro r w' hn
  cases hn with
  | ended ht hl => exact ⟨hI, ht, _, hl, rfl⟩

/-- The exit of the process is known once it is waited for, unless that fails. -/
theorem reap_safe (hI : w.KillsOnce) :
    (invoke .reap).Safe (ProcessNext b) ProcessWorld.KillsOnce
      (fun (task : OwnedTask Int) w' => WaitedFor task ∧ ∃ code failed,
        (code.isSome = true ∨ failed = true) ∧ (w.returncode.isSome = true → code.isSome = true) ∧
          w' = { w with
            returncode := code, reapFailed := failed
            cancellations := w.cancellations ++ delivered task })
      (fun _ _ => False) w := by
  apply Prog.Safe.invoke
  intro r w' hn
  cases hn with
  | reaped ht hr => exact ⟨hI, ht, _, _, .inl rfl, fun _ => rfl, rfl⟩
  | unreaped ht hr hl => exact ⟨hI, ht, _, _, .inr rfl, hl.isSome, rfl⟩

/-- Whatever fails, the process is stopped, and the cancellations meanwhile are returned. -/
theorem stopAndReapProcess_stops (hk : w.kills = []) :
    stopAndReapProcess.Safe (ProcessNext b) ProcessWorld.KillsOnce
      (fun r w' => w'.Stopped ∧ w'.started = w.started ∧ (∀ e ∈ r.1, isCancelled e = true) ∧
        (w'.cancellations ≠ [] → w.cancellations ≠ [] ∨ r.1 ≠ []))
      (fun _ _ => False) w := by
  have hI : w.KillsOnce := .inl hk
  rw [stopAndReapProcess]
  apply Prog.Safe.bind (returncode_safe (Q := fun code w' => code = w.returncode ∧ w = w') hI
    ⟨rfl, rfl⟩)
  rintro _ _ ⟨rfl, rfl⟩
  apply Prog.Safe.bind (kill_safe hk)
  rintro cleanupError _ ⟨kills, rfl, hkills⟩
  have hK : ∀ w' : ProcessWorld, w'.kills = kills → w'.KillsOnce := by
    intro w' he
    rw [ProcessWorld.KillsOnce, he]
    rcases hkills with h | ⟨h, -⟩
    · exact .inr h
    · exact .inl h
  apply Prog.Safe.bind (endCommunication_safe (hK _ rfl))
  rintro communication _ ⟨hcommunication, code, hl, rfl⟩
  apply Prog.Safe.bind (reap_safe (hK _ rfl))
  rintro reap _ ⟨hreap, code', failed, hreaped, hkept, rfl⟩
  obtain ⟨hnil, hcancelled⟩ := hcommunication.cancellations
  obtain ⟨hnil', hcancelled'⟩ := hreap.cancellations
  refine ⟨⟨rfl, hreaped, ?_⟩, rfl, ?_, ?_⟩
  · rcases hkills with h | ⟨h, hs⟩
    · exact .inl h
    · exact .inr ⟨h, hkept (hl.isSome hs)⟩
  · intro e he
    rcases List.mem_append.1 he with he | he
    · exact hcancelled e he
    · exact hcancelled' e he
  · intro hne
    by_contra hnone
    obtain ⟨hbefore, hafter⟩ := not_or.1 hnone
    rw [not_not] at hbefore hafter
    obtain ⟨h₁, h₂⟩ := List.append_eq_nil_iff.1 hafter
    apply hne
    change w.cancellations ++ delivered communication ++ delivered reap = []
    rw [hbefore, hnil.1 h₁, hnil'.1 h₂]
    rfl

theorem cancelled_ne_limit {e : Raised} (h : isCancelled e = true) :
    e.error ≠ limitFailure.error := by
  intro he
  rw [isCancelled, he] at h
  exact absurd h (by decide)

theorem cancelled_not_exceeds {e : Raised} (h : isCancelled e = true) :
    ¬(CaptureError.alone e).exceedsLimit = true := by
  rw [CaptureError.exceedsLimit, isOutputLimitExceeded, of_decide_eq_true h]
  decide

/-- Only a failure that is mapped to the limit's is raised as that. -/
theorem Owner.raised_limit (owner : Owner) {error : CaptureError} {cancellations : List Raised}
    (cleanupError : Option Raised) (hc : ∀ e ∈ cancellations, isCancelled e = true)
    (h : (owner.raised cancellations cleanupError error).error = limitFailure.error) :
    (owner.mapped error).error = limitFailure.error := by
  by_cases hne : cancellations = []
  · subst hne
    cases error with
    | group errors => rwa [raised, failed, owner.noted_error] at h
    | alone e =>
      rw [raised] at h
      split at h
      · rename_i he
        rw [prepareCancellation_error, owner.noted_error] at h
        exact absurd h (cancelled_ne_limit he)
      · rwa [failed, owner.noted_error] at h
  · exact absurd h (cancelled_ne_limit (owner.raised_cancelled cleanupError hc (.inr hne)))

/-- What is raised about a process that was started. -/
structure Raises (b : Behaviour) (e : Raised) (w : ProcessWorld) : Prop where
  stopped : w.Stopped
  cancelled : w.cancellations ≠ [] → isCancelled e = true
  escapes : isCancelled e = true ∨ e.error.kind = .repositoryError
  limit : e.error = limitFailure.error → b.OverLimit

theorem Raises.left {α : Type} {e : Raised} (h : Raises b e w) :
    w.Left b (.error e : Except Raised α) where
  stopped _ := h.stopped
  cancelled hne := ⟨e, rfl, h.cancelled hne⟩
  escapes _ e' he := by
    cases he
    exact h.escapes
  limit _ e' he := by
    cases he
    exact h.limit

/-- After a failed capture the process is stopped, and what is raised tells of every
cancellation. -/
theorem stopped_raises (owner : Owner) (error : CaptureError) (hk : w.kills = [])
    (hc : w.cancellations ≠ [] → ∃ e, error = .alone e ∧ isCancelled e = true)
    (hl : (owner.mapped error).error = limitFailure.error → b.OverLimit) :
    (stopAndReapProcess >>= fun r => .throw (owner.raised r.1 r.2 error) :
      ProcessProgram α).Safe (ProcessNext b) ProcessWorld.KillsOnce (fun _ _ => False)
        (Raises b) w := by
  apply ((stopAndReapProcess_stops hk).mono (fun _ _ h => h) fun _ _ h => h.elim).bind
  rintro ⟨cancellations, cleanupError⟩ w' ⟨hstopped, -, hall, hdelivered⟩
  refine ⟨hstopped, fun hne => ?_, owner.raised_kind error cleanupError hall,
    fun h => hl (owner.raised_limit cleanupError hall h)⟩
  apply owner.raised_cancelled cleanupError hall
  rcases hdelivered hne with hbefore | hafter
  · exact .inl (hc hbefore)
  · exact .inr hafter

/-- The communication gives the whole outputs of a process that has exited. If it fails, no
cancellation is lost, and the limit is blamed only for an output over it. -/
theorem capture_safe (owner : Owner) (h : w.Spawned b) :
    (invoke .capture).Safe (ProcessNext b) ProcessWorld.KillsOnce
      (fun (captured : Except CaptureError (Bytes × Bytes)) w' =>
        w'.kills = [] ∧ (∀ outputs, captured = .ok outputs → w'.Complete b outputs) ∧
          ∀ error, captured = .error error →
            (w'.cancellations ≠ [] → ∃ e, error = .alone e ∧ isCancelled e = true) ∧
              ((owner.mapped error).error = limitFailure.error → b.OverLimit))
      (fun _ _ => False) w := by
  have hkills := h.kills
  apply Prog.Safe.invoke
  intro r w' hn
  cases hn with
  | @captured _ g code captured hr hc hl hk =>
    refine ⟨.inl hkills, hkills, fun outputs he => ?_, fun error he =>
      ⟨fun hne => absurd h.cancellations hne, fun hlimit => ?_⟩⟩
    · subst he
      obtain ⟨stdout, stderr⟩ := outputs
      rw [h.capture] at hr
      obtain ⟨hx, ⟨rfl, rfl⟩, hlimited⟩ := collectProcessOutput_returns hr hc
      obtain ⟨c, left, hentry⟩ := wait_returns hr hx
      have hcode := hk c left hentry
      subst hcode
      exact ⟨rfl, rfl, hlimited, rfl, ⟨rfl, .inl rfl, .inr ⟨hkills, rfl⟩⟩, h.cancellations⟩
    · subst he
      rw [h.capture] at hr
      obtain ⟨hover, halone⟩ := collectProcessOutput_fails hr hc
      rcases owner.mapped_limit error hlimit with hexceeds | ⟨e, rfl, he⟩
      · exact hover hexceeds
      · exact absurd he (cancelled_ne_limit (halone e rfl))
  | unpiped =>
    refine ⟨.inl hkills, hkills, nofun, fun error he =>
      ⟨fun hne => absurd h.cancellations hne, fun hlimit => ?_⟩⟩
    cases he
    rcases owner.mapped_limit _ hlimit with hexceeds | ⟨e, he, hlimit⟩
    · exact absurd hexceeds (by decide)
    · cases he
      exact absurd hlimit (by decide)
  | interrupted he hr hl =>
    refine ⟨.inl hkills, hkills, nofun, fun error herror => ?_⟩
    cases herror
    refine ⟨fun _ => ⟨_, rfl, he⟩, fun hlimit => ?_⟩
    rcases owner.mapped_limit _ hlimit with hexceeds | ⟨e, herror, hlimit⟩
    · exact absurd hexceeds (cancelled_not_exceeds he)
    · cases herror
      exact absurd hlimit (cancelled_ne_limit he)

theorem captureOwned_captures (owner : Owner) (h : w.Spawned b) :
    (captureOwned owner).Safe (ProcessNext b) ProcessWorld.KillsOnce
      (fun outputs w' => w'.Complete b outputs) (Raises b) w := by
  rw [captureOwned]
  apply ((capture_safe owner h).mono (fun _ _ h => h) fun _ _ h => h.elim).bind
  rintro captured w' ⟨hkills, hok, herror⟩
  cases captured with
  | ok outputs => exact hok outputs rfl
  | error error =>
    obtain ⟨hcancelled, hlimit⟩ := herror error rfl
    exact (stopped_raises owner error hkills hcancelled hlimit).mono (fun _ _ h => h.elim)
      fun _ _ h => h

theorem spawn_spawns (command : Command) (message : String) :
    (spawn command message).Safe (ProcessNext b) ProcessWorld.KillsOnce
      (fun _ w' => w'.Spawned b)
      (fun e w' => w'.started = false ∧ (w'.cancellations ≠ [] → isCancelled e = true))
      (.initial b) := by
  rw [spawn]
  apply Prog.Safe.attempt_bind (Q := fun _ w' => w'.Spawned b)
    (R := fun e w' => w'.started = false ∧
      (w'.cancellations ≠ [] → isCancelled e = true ∧ e.isOSError = false))
  · apply Prog.Safe.invoke
    intro r w' hn
    cases hn with
    | started => exact ⟨.inl rfl, rfl, rfl, rfl⟩
    | notStarted he => exact ⟨.inl rfl, rfl, fun hne => absurd rfl hne⟩
    | startCancelled he ho => exact ⟨.inl rfl, rfl, fun _ => ⟨he, ho⟩⟩
  · intro r w' hr
    cases r with
    | ok _ => exact hr
    | error e =>
      refine ⟨hr.1, fun hne => ?_⟩
      obtain ⟨he, ho⟩ := hr.2 hne
      rw [ho]
      exact he

theorem left_unstarted {α : Type} {e : Raised} {w : ProcessWorld} (hs : w.started = false)
    (hc : w.cancellations ≠ [] → isCancelled e = true) : w.Left b (.error e : Except Raised α) := by
  have hnot : ¬w.started = true := by
    rw [hs]
    decide
  exact ⟨fun h => absurd h hnot, fun hne => ⟨e, rfl, hc hne⟩, fun h => absurd h hnot,
    fun h => absurd h hnot⟩

theorem ProcessWorld.Complete.left {α : Type} {outputs : Bytes × Bytes} {w : ProcessWorld} {a : α}
    (h : w.Complete b outputs) : w.Left b (.ok a) :=
  ⟨fun _ => h.stopped, fun hne => absurd h.uncancelled hne, fun _ => nofun, fun _ => nofun⟩

/-- A program that owns a process ends so, and returns only with `Q`. -/
abbrev Owns (b : Behaviour) (p : ProcessProgram α) (Q : α → Prop) : Prop :=
  p.Safe (ProcessNext b) ProcessWorld.KillsOnce (fun a w' => w'.Left b (.ok a) ∧ Q a)
    (fun e w' => w'.Left b (.error e : Except Raised α)) (.initial b)

/-- A process is started, its output captured, and something made of it. -/
theorem spawn_owns {p : Bytes × Bytes → ProcessProgram α} {Q : α → Prop} (command : Command)
    (message : String) (owner : Owner)
    (hp : ∀ outputs w, w.Complete b outputs → (p outputs).Safe (ProcessNext b)
      ProcessWorld.KillsOnce (fun a w' => w'.Complete b outputs ∧ Q a)
      (fun e w' => w'.Complete b outputs ∧ e.error.kind = .repositoryError ∧
        e.error ≠ limitFailure.error) w) :
    Owns b (spawn command message >>= fun _ => captureOwned owner >>= p) Q := by
  apply Prog.Safe.bind (Q := fun _ w' => w'.Spawned b)
  · apply (spawn_spawns command message).mono (fun _ _ h => h)
    rintro e w' ⟨hs, hc⟩
    exact left_unstarted hs hc
  · intro _ w' hspawned
    apply Prog.Safe.bind ((captureOwned_captures owner hspawned).mono (fun _ _ h => h)
      fun _ _ h => h.left)
    intro outputs w'' hcomplete
    apply (hp outputs w'' hcomplete).mono
    · rintro a v ⟨h, hQ⟩
      exact ⟨h.left, hQ⟩
    · rintro e v ⟨h, hkind, hother⟩
      refine ⟨fun _ => h.stopped, fun hne => absurd h.uncancelled hne, fun _ e' he => ?_,
        fun _ e' he hlimit => ?_⟩
      · cases he
        exact .inr hkind
      · cases he
        exact absurd hlimit hother

theorem ProcessWorld.Complete.killsOnce {outputs : Bytes × Bytes} (h : w.Complete b outputs) :
    w.KillsOnce := by
  rcases h.stopped.killed with hk | ⟨hk, -⟩
  · exact .inr hk
  · exact .inl hk

theorem runReadOnly_owns (argv : List Text) (cwd : PurePath) :
    Owns b (LocalCommandRunner.runReadOnly argv cwd) fun result =>
      result = ⟨b.code, decodeSurrogateEscape (b.output .stdout),
        decodeSurrogateEscape (b.output .stderr)⟩ ∧
      ∀ pipe, (b.output pipe).length ≤ gitOutputLimitBytes := by
  apply spawn_owns
  rintro ⟨stdout, stderr⟩ w h
  have hcode := returncode_safe (b := b) (w := w) (Q := fun code w' => code = some b.code ∧ w' = w)
    h.killsOnce ⟨h.returncode, rfl⟩
  apply (hcode.mono (fun _ _ h => h) fun _ _ h => h.elim).bind
  rintro _ _ ⟨rfl, rfl⟩
  have hstdout := h.stdout
  have hstderr := h.stderr
  subst hstdout hstderr
  exact ⟨h, rfl, h.limited⟩

theorem hashDescriptors_owns (executable : Text) (requests : List HelperRequest)
    (algorithm : HashAlgorithm) :
    Owns b (LocalBlobHasher.hashDescriptors executable requests algorithm) fun digests =>
      (requests ≠ [] ∧ requests.length ≤ blobHashBatchMax) ∧
      ∃ output, LocalBlobHasher.decodeAscii (b.output .stdout) = some output ∧
        LocalBlobHasher.digestsOf algorithm requests.length (some b.code) output
          (b.output .stderr) = .ok digests := by
  rw [LocalBlobHasher.hashDescriptors]
  split
  · exact left_unstarted rfl fun hne => absurd rfl hne
  · rename_i hbatch
    rw [not_or, not_lt] at hbatch
    apply spawn_owns
    rintro ⟨stdout, stderr⟩ w h
    have hstdout := h.stdout
    have hstderr := h.stderr
    subst hstdout hstderr
    rw [LocalBlobHasher.digestsFrom]
    split
    · exact ⟨h, rfl, by decide⟩
    · rename_i output houtput
      have hcode := returncode_safe (b := b) (w := w)
        (Q := fun code w' => code = some b.code ∧ w' = w) h.killsOnce ⟨h.returncode, rfl⟩
      apply (hcode.mono (fun _ _ h => h) fun _ _ h => h.elim).bind
      rintro _ _ ⟨rfl, rfl⟩
      apply Prog.Safe.ofExcept
      · intro digests hd
        exact ⟨h, hbatch, output, houtput, hd⟩
      · intro e he
        refine ⟨h, ?_⟩
        rw [LocalBlobHasher.digestsOf] at he
        split at he
        · cases he
          exact ⟨rfl, by decide⟩
        · cases he

end Owning

section Hashing

open LocalBlobHasher

/-- What a digest object prints is hexadecimal. -/
def PrintsHex (d : DigestObject) : Prop := ∀ state, ∀ c ∈ d.hexdigest state, isHexDigit c = true

/-- The process of the hash helper exits with 0 only if its `main` returns 0, and has printed then
what that has written. -/
def RunsHelper (d : DigestObject) (files : HelperWorld) (algorithm : HashAlgorithm)
    (requests : List HelperRequest) (b : Behaviour) : Prop :=
  b.code = 0 → ∃ files', Prog.Steps HelperNext
    (HashHelper.main d (helperArguments algorithm requests)) files (.pure 0) files' ∧
      b.output .stdout = files'.stdout

/-- The blob id of the requested part of a file. -/
def requestedBlob (d : DigestObject) (files : HelperWorld) (algorithm : HashAlgorithm)
    (request : HelperRequest) : Text :=
  hashGitBlob d.digestOf algorithm (((files.unread request.descriptor).getD []).take request.size)

theorem decodeAscii_asciiBytes {t : Text} (h : ∀ c ∈ t, isAscii c = true) :
    decodeAscii (asciiBytes t) = some t := by
  have hbyte : ∀ c ∈ t, (c.val.toUInt8 < 0x80) ∧ Fin.ofNat 0x110000 c.val.toUInt8.toNat = c := by
    intro c hc
    have hlt : c.val < 128 := of_decide_eq_true (h c hc)
    have hnat : c.val.toUInt8.toNat = c.val := by
      rw [Nat.toUInt8, UInt8.toNat_ofNat']
      exact Nat.mod_eq_of_lt (hlt.trans (by decide))
    constructor
    · rw [UInt8.lt_iff_toNat_lt, hnat]
      exact hlt
    · rw [hnat]
      exact Fin.ext (Nat.mod_eq_of_lt c.isLt)
  have hall : (asciiBytes t).all (fun b => decide (b < 0x80)) = true := by
    rw [asciiBytes, List.all_map, List.all_eq_true]
    exact fun c hc => decide_eq_true (hbyte c hc).1
  have hmap : (asciiBytes t).map (fun b => Fin.ofNat 0x110000 b.toNat) = t := by
    rw [asciiBytes, List.map_map]
    exact (List.map_congr_left fun c hc => (hbyte c hc).2).trans (List.map_id t)
  rw [decodeAscii, if_pos hall, hmap]

theorem requestLines_eq (d : DigestObject) (algorithm : HashAlgorithm) (files : HelperWorld)
    (requests : List HelperRequest) :
    (requests.map HelperRequest.pair).flatMap (requestLine d algorithm files.unread) =
      asciiBytes (terminate 0x0A (requests.map (requestedBlob d files algorithm))) := by
  induction requests with
  | nil => rfl
  | cons request requests ih =>
    have hline : requestLine d algorithm files.unread request.pair =
        asciiBytes (requestedBlob d files algorithm request ++ [0x0A]) := by
      rw [requestLine, d.gitBlob_eq, asciiBytes, asciiBytes, List.map_append]
      rfl
    rw [List.map_cons, List.flatMap_cons, ih, hline, asciiBytes, asciiBytes, ← List.map_append]
    rfl

theorem isAscii_of_isHexDigit {c : CodePoint} (h : isHexDigit c = true) : isAscii c = true := by
  simp only [isHexDigit, Bool.or_eq_true, Bool.and_eq_true, decide_eq_true_eq] at h
  simp only [isAscii, decide_eq_true_eq]
  omega

/-- Records without the separator are told by what they make together. -/
theorem terminate_inj {sep : CodePoint} {a b : List Text} (ha : ∀ r ∈ a, sep ∉ r)
    (hb : ∀ r ∈ b, sep ∉ r) (h : terminate sep a = terminate sep b) : a = b := by
  have hsplit := splitOn_terminate ha
  rw [h, splitOn_terminate hb] at hsplit
  exact (List.append_cancel_right hsplit).symm

theorem newline_not_mem {t : Text} (h : ∀ c ∈ t, isHexDigit c = true) : (0x0A : CodePoint) ∉ t := by
  intro hm
  exact absurd (h _ hm) (by decide)

theorem digestsOf_ok {algorithm : HashAlgorithm} {count : Nat} {returncode : Option Int}
    {output : Text} {stderr : Bytes}
    (h : digestsOf algorithm count returncode output stderr = .ok digests) :
    returncode = some 0 ∧ output = terminate 0x0A digests ∧
      ∀ digest ∈ digests, ∀ c ∈ digest, isHexDigit c = true := by
  rw [digestsOf] at h
  split at h
  · cases h
  · rename_i hvalid
    cases h
    simp only [not_or, not_not, not_exists, not_and, Bool.not_eq_false] at hvalid
    obtain ⟨hcode, -, -, -, hhex, houtput⟩ := hvalid
    exact ⟨hcode, houtput, hhex⟩

/-- Where the helper exits with 0, it has printed the blob id of every request, in order, and every
file was long enough. -/
theorem RunsHelper.output {d : DigestObject} {files : HelperWorld} {algorithm : HashAlgorithm}
    {requests : List HelperRequest} (h : RunsHelper d files algorithm requests b)
    (hne : requests ≠ []) (hmax : requests.length ≤ batchMax)
    (hopen : ∀ request ∈ requests, (files.unread request.descriptor).isSome)
    (hprinted : files.stdout = []) (hcode : b.code = 0) :
    AllFull files requests ∧ b.output .stdout =
      asciiBytes (terminate 0x0A (requests.map (requestedBlob d files algorithm))) := by
  obtain ⟨files', hs, hout⟩ := h hcode
  have hn : (requests.map HelperRequest.descriptor).Nodup := by
    by_contra hn
    have htwo : 0 = 2 := ((main_ends hne (hashBatch_doubled hn)).returns trivial hs).2
    cases htwo
  by_cases hfull : AllFull files requests
  · have hends := main_ends (d := d) hne (hashBatch_full algorithm hmax hn hopen hfull)
    obtain ⟨-, hstdout⟩ := (hends.returns trivial hs).2
    refine ⟨hfull, ?_⟩
    rw [hout, hstdout, hprinted, List.nil_append, requestLines_eq]
  · have hends := main_ends (d := d) hne (hashBatch_short algorithm hmax hn hopen hfull)
    have hthree : 0 = 3 := (hends.returns trivial hs).2
    cases hthree

theorem requestedBlob_hex {d : DigestObject} (hd : PrintsHex d) (files : HelperWorld)
    (algorithm : HashAlgorithm) (request : HelperRequest) :
    ∀ c ∈ requestedBlob d files algorithm request, isHexDigit c = true := by
  rw [requestedBlob, ← d.gitBlob_eq]
  exact hd _

theorem RunsHelper.digests {d : DigestObject} {files : HelperWorld} {algorithm : HashAlgorithm}
    {requests : List HelperRequest} {output : Text} {digests : List Text}
    (h : RunsHelper d files algorithm requests b)
    (hd : PrintsHex d) (hne : requests ≠ []) (hmax : requests.length ≤ batchMax)
    (hopen : ∀ request ∈ requests, (files.unread request.descriptor).isSome)
    (hprinted : files.stdout = []) (hascii : decodeAscii (b.output .stdout) = some output)
    (hdigests : digestsOf algorithm requests.length (some b.code) output (b.output .stderr) =
      .ok digests) :
    AllFull files requests ∧ digests = requests.map (requestedBlob d files algorithm) := by
  obtain ⟨hcode, houtput, hhex⟩ := digestsOf_ok hdigests
  obtain ⟨hfull, hstdout⟩ := h.output hne hmax hopen hprinted (Option.some.inj hcode)
  refine ⟨hfull, ?_⟩
  have hprints : ∀ t ∈ requests.map (requestedBlob d files algorithm), (0x0A : CodePoint) ∉ t := by
    intro t ht
    obtain ⟨request, -, rfl⟩ := List.mem_map.1 ht
    exact newline_not_mem (requestedBlob_hex hd files algorithm request)
  have htext : ∀ c ∈ terminate 0x0A (requests.map (requestedBlob d files algorithm)),
      isAscii c = true := by
    intro c hc
    obtain ⟨t, ht, hmem⟩ := List.mem_flatMap.1 hc
    obtain ⟨request, -, rfl⟩ := List.mem_map.1 ht
    rcases List.mem_append.1 hmem with hmem | hmem
    · exact isAscii_of_isHexDigit (requestedBlob_hex hd files algorithm request c hmem)
    · rw [List.mem_singleton.1 hmem]
      rfl
  rw [hstdout, decodeAscii_asciiBytes htext, Option.some_inj, houtput] at hascii
  exact terminate_inj (fun digest hm => newline_not_mem (hhex digest hm)) hprints hascii.symm

/-- In every run the process is killed at most once, and when the program ends, in whatever way, it
is stopped and no cancellation is lost. -/
def Supervises (b : Behaviour) (p : ProcessProgram α) : Prop :=
  ∀ q w, Prog.Steps (ProcessNext b) p (.initial b) q w →
    w.KillsOnce ∧ ∀ x, q.outcome? = some x → w.Left b x

theorem Owns.supervises {p : ProcessProgram α} {Q : α → Prop} (h : Owns b p Q) :
    Supervises b p := by
  intro q w hs
  have hI : (ProcessWorld.initial b).KillsOnce := .inl rfl
  refine ⟨(h.steps hI hs).1, fun x hx => ?_⟩
  have hend := h.ends hI hs hx
  cases x with
  | ok a => exact hend.1
  | error e => exact hend

/-- A command returns only with everything it has printed and with its exit code, and only if
neither output is over the limit. -/
theorem runReadOnly_exact {argv : List Text} {cwd : PurePath} {result : CommandResult}
    {w : ProcessWorld} (hs : Prog.Steps (ProcessNext b) (LocalCommandRunner.runReadOnly argv cwd)
      (.initial b) (.pure result) w) :
    result = ⟨b.code, decodeSurrogateEscape (b.output .stdout),
      decodeSurrogateEscape (b.output .stderr)⟩ ∧
      ∀ pipe, (b.output pipe).length ≤ gitOutputLimitBytes :=
  ((runReadOnly_owns argv cwd).returns (.inl rfl) hs).2.2

/-- The digests that a batch returns are the Git blob ids of the requested parts, in the order of
the requests, and every file had as much as was requested. -/
theorem hashDescriptors_exact {d : DigestObject} {files : HelperWorld} {algorithm : HashAlgorithm}
    {requests : List HelperRequest} {executable : Text} {w : ProcessWorld} (hd : PrintsHex d)
    (hopen : ∀ request ∈ requests, (files.unread request.descriptor).isSome)
    (hprinted : files.stdout = []) (hb : RunsHelper d files algorithm requests b)
    (hs : Prog.Steps (ProcessNext b)
      (LocalBlobHasher.hashDescriptors executable requests algorithm) (.initial b)
      (.pure digests) w) :
    AllFull files requests ∧ digests = requests.map (requestedBlob d files algorithm) := by
  obtain ⟨-, ⟨hne, hmax⟩, output, hascii, hdigests⟩ :=
    ((hashDescriptors_owns executable requests algorithm).returns (.inl rfl) hs).2
  exact hb.digests hd hne hmax hopen hprinted hascii hdigests

end Hashing

section Answering

open LocalRepositoryInspector (Surroundings Places Answers openRequests_places)

/-- A request as the inspection makes it. -/
def asRequested (request : HelperRequest) : LocalRepositoryInspector.BlobHashRequest :=
  ⟨request.descriptor, request.size⟩

/-- The helper has the descriptors of an inspection, and reads their files from the beginning. -/
structure Inherits (env : Surroundings) (s : Places) (files : HelperWorld)
    (requests : List HelperRequest) : Prop where
  printed : files.stdout = []
  opened : ∀ request ∈ requests, ∃ p node, s request.descriptor = some p ∧
    env.worktree p = some node ∧ files.unread request.descriptor = some node.content

/-- However the hashing of a batch ends, it is an answer that the inspection allows for. -/
theorem hashDescriptors_answers {d : DigestObject} {files : HelperWorld} {env : Surroundings}
    {s : Places} {algorithm : HashAlgorithm} {requests : List HelperRequest} {executable : Text}
    {q : ProcessProgram (List Text)} {w : ProcessWorld} {x : Except Raised (List Text)}
    (hd : PrintsHex d) (hf : Inherits env s files requests)
    (hh : env.hasher.Hashes env.worktree d.digestOf)
    (hb : RunsHelper d files algorithm requests b)
    (hs : Prog.Steps (ProcessNext b)
      (LocalBlobHasher.hashDescriptors executable requests algorithm) (.initial b) q w)
    (hx : q.outcome? = some x) :
    Answers env s (.hashDescriptors (requests.map asRequested) algorithm) x s := by
  cases q with
  | call c k => cases hx
  | throw e =>
    cases hx
    apply Answers.failed
    intro name current h
    cases h
  | pure digests =>
    cases hx
    obtain ⟨-, ⟨hne, hmax⟩, output, hascii, hdigests⟩ :=
      ((hashDescriptors_owns executable requests algorithm).returns (.inl rfl) hs).2
    have hopen : ∀ request ∈ requests, (files.unread request.descriptor).isSome := by
      intro request hm
      obtain ⟨p, node, -, -, hread⟩ := hf.opened request hm
      rw [hread]
      rfl
    obtain ⟨-, hblobs⟩ := hb.digests hd hne hmax hopen hf.printed hascii hdigests
    have hplaces : ∀ request ∈ requests.map asRequested, (s request.descriptor).isSome = true := by
      intro request hm
      obtain ⟨asked, ha, rfl⟩ := List.mem_map.1 hm
      obtain ⟨p, node, hp, -⟩ := hf.opened asked ha
      rw [asRequested, hp]
      rfl
    apply Answers.hashed (openRequests_places hplaces)
    rw [hh, hblobs]
    · rw [List.map_map, List.map_map]
      congr 1
      apply List.map_congr_left
      intro request hm
      obtain ⟨p, node, hp, hnode, hread⟩ := hf.opened request hm
      simp only [Function.comp, asRequested, BlobHashRequest.blob, requestedBlob, hp, hnode, hread,
        Option.getD_some, Option.elim_some]
    · simpa using hne
    · simpa using hmax

end Answering

section Sample

variable {b : Behaviour} {g g' : Capture}

/-- One step of a group whose tasks nobody else cancels. -/
abbrev CaptureStep (b : Behaviour) (g g' : Capture) : Prop :=
  (TaskGroup.Step captureTasks (TaskGroup.Executes (CaptureNext b.code) isCancelled) g g' ∧
    TaskGroup.Orderly captureTasks g g') ∧ TaskGroup.Requested captureTasks g g'

/-- A group in which a task has just returned. -/
def Capture.finish (g : Capture) (i : CaptureTask) (captured : Captured) (left : Bytes) : Capture :=
  { g.setStage i (.done .returned) with store := Function.update g.store i (.pure captured, left) }

theorem finish_step {i : CaptureTask} {captured : Captured} {left : Bytes} (hm : i ∈ captureTasks)
    (hstage : g.stage i = .created false)
    (hs : Prog.Steps (CaptureNext b.code) (g.store i).1 (g.store i).2 (.pure captured) left) :
    CaptureStep b g (g.finish i captured left) := by
  refine ⟨⟨.first hm hstage (TaskGroup.Executes.returns hs), ?_⟩, ?_⟩
  · intro ha ha'
    rw [show (g.finish i captured left).aborting = g.aborting from rfl, ha] at ha'
    cases ha'
  · intro _ j _ hj
    change (g.setStage i (.done .returned)).stage j = _ at hj
    rw [TaskGroup.setStage_stage] at hj
    split at hj
    · cases hj
    · exact hj

theorem settle_step {i : CaptureTask} (hm : i ∈ captureTasks)
    (hstage : g.stage i = .done .returned) :
    CaptureStep b g (g.settle captureTasks i .returned) := by
  have haborting : (g.settle captureTasks i .returned).aborting = g.aborting :=
    TaskGroup.afterSettled_aborting captureTasks (g.setStage i .settled)
  refine ⟨⟨.settle hm hstage, ?_⟩, ?_⟩
  · intro ha ha'
    rw [haborting, ha] at ha'
    cases ha'
  · intro ha j _ hj
    rcases TaskGroup.settle_stage captureTasks g i j .returned with hset | ⟨-, ha', -⟩
    · rw [hset] at hj
      split at hj
      · cases hj
      · exact hj
    · rw [haborting, ha] at ha'
      cases ha'

theorem readBoundedStream_ends {code : Int} (output : Bytes) :
    Prog.Steps (CaptureNext code) (readBoundedStream output) [] (.pure output) [] := by
  have hend : CaptureNext code [] (.read gitReadChunkBytes) (.ok ⟨[], Nat.zero_le _⟩) [] :=
    @CaptureNext.read code gitReadChunkBytes [] [] (Nat.zero_le _) fun _ => rfl
  rw [readBoundedStream]
  apply Prog.Steps.call hend
  exact .refl

theorem reader_steps {code : Int} (pipe : Pipe) {content : Bytes}
    (h : content.length ≤ gitReadChunkBytes) :
    Prog.Steps (CaptureNext code) (captureProgram (.read pipe)) content
      (.pure (.output content)) [] := by
  have hstream : Prog.Steps (CaptureNext code) (readBoundedStream []) content
      (.pure content) [] := by
    by_cases hempty : content = []
    · subst hempty
      exact readBoundedStream_ends []
    · have hlimit : ¬([] : Bytes).length + content.length > gitOutputLimitBytes := by
        have hle : gitReadChunkBytes ≤ gitOutputLimitBytes := by decide
        rw [List.length_nil, Nat.zero_add]
        omega
      have hread : CaptureNext code content (.read gitReadChunkBytes) (.ok ⟨content, h⟩) [] := by
        have hchunk := @CaptureNext.read code gitReadChunkBytes content [] h
            fun he => absurd he hempty
        rwa [List.append_nil] at hchunk
      have hrest := @readBoundedStream_ends code content
      rw [readBoundedStream]
      apply Prog.Steps.call hread
      dsimp only
      rw [if_neg hempty, if_neg hlimit, List.nil_append]
      exact hrest
  exact hstream.seq .refl

/-- Where each output comes in one chunk, the communication can return it. -/
theorem capture_completes (h : ∀ pipe, (b.output pipe).length ≤ gitReadChunkBytes) :
    ∃ g, CaptureRuns b (.start (captureStore b)) g ∧
      collectProcessOutput g = some (.ok (b.output .stdout, b.output .stderr)) := by
  let g₀ : Capture := .start (captureStore b)
  let g₁ := g₀.finish (.read .stdout) (.output (b.output .stdout)) []
  let g₂ := g₁.finish (.read .stderr) (.output (b.output .stderr)) []
  let g₃ := g₂.finish .wait (.exit b.code) []
  let g₄ := g₃.settle captureTasks (.read .stdout) .returned
  let g₅ := g₄.settle captureTasks (.read .stderr) .returned
  let g₆ := g₅.settle captureTasks .wait .returned
  let g₇ := g₆.resume captureTasks ⟨0, false, none⟩ .value
  have h₁ : CaptureStep b g₀ g₁ := finish_step (by decide) rfl (reader_steps .stdout (h .stdout))
  have h₂ : CaptureStep b g₁ g₂ := finish_step (by decide) rfl (reader_steps .stderr (h .stderr))
  have h₃ : CaptureStep b g₂ g₃ := finish_step (by decide) rfl (.call .waited .refl)
  have h₄ : CaptureStep b g₃ g₄ := settle_step (by decide) rfl
  have h₅ : CaptureStep b g₄ g₅ := settle_step (by decide) rfl
  have h₆ : CaptureStep b g₅ g₆ := settle_step (by decide) rfl
  have h₇ : CaptureStep b g₆ g₇ := by
    refine ⟨⟨.resume rfl rfl, fun _ ha => ?_⟩, fun _ i hi hd => ?_⟩
    · cases ha
    · cases i with
      | read pipe => cases pipe <;> cases hd
      | wait => cases hd
  have hr : CaptureRuns b g₀ g₇ :=
    ((((((Relation.ReflTransGen.single h₁).tail h₂).tail h₃).tail h₄).tail h₅).tail h₆).tail h₇
  exact ⟨g₇, hr, rfl⟩

/-- A process whose outputs come in one chunk each is captured. -/
theorem captured_steps (h : ∀ pipe, (b.output pipe).length ≤ gitReadChunkBytes) (command : Command)
    (message : String) (owner : Owner) (p : Bytes × Bytes → ProcessProgram α) :
    ∃ w : ProcessWorld, w.returncode = some b.code ∧ Prog.Steps (ProcessNext b)
      (spawn command message >>= fun _ => captureOwned owner >>= p) (.initial b)
      (p (b.output .stdout, b.output .stderr)) w := by
  obtain ⟨g, hr, hc⟩ := capture_completes h
  have hspawn : Prog.Steps (ProcessNext b) (spawn command message) (.initial b) (.pure ())
      { ProcessWorld.initial b with started := true, communicating := true } :=
    .call .started .refl
  have hcapture : Prog.Steps (ProcessNext b) (captureOwned owner)
      { ProcessWorld.initial b with started := true, communicating := true }
      (.pure (b.output .stdout, b.output .stderr))
      { ProcessWorld.initial b with
        started := true, capture := g, communicating := false, returncode := some b.code } :=
    .call (.captured hr hc (.inr rfl) fun _ _ _ => rfl) .refl
  exact ⟨_, rfl, hspawn.seq (hcapture.seq .refl)⟩

def sampleDigests : List Text :=
  [text "e69de29bb2d1d6434b8b29ae775ad8c2e48c5391", text "2e65efe2a145dda7ee51d1741299f848e5bf752e"]

/-- A helper that has hashed the sample's files. -/
def sampleHelper : Behaviour where
  output
    | .stdout => asciiBytes (terminate 0x0A sampleDigests)
    | .stderr => []
  code := 0

theorem sampleFull : AllFull sampleFiles sampleRequests := by
  unfold AllFull
  decide

theorem sampleHelper_runs :
    RunsHelper sampleDigest sampleFiles .sha1 sampleRequests sampleHelper := by
  intro _
  have hends : HelperEnds (HashHelper.main sampleDigest (helperArguments .sha1 sampleRequests))
      sampleFiles fun code files' => code = 0 ∧ files'.stdout = sampleFiles.stdout ++
        (sampleRequests.map HelperRequest.pair).flatMap
          (requestLine sampleDigest .sha1 sampleFiles.unread) :=
    main_ends (by decide) (hashBatch_full .sha1 (by decide) (by decide) (by decide) sampleFull)
  obtain ⟨q, files', hs, hx⟩ := Prog.exists_end helperNext_total
    (HashHelper.main sampleDigest (helperArguments .sha1 sampleRequests)) sampleFiles
  obtain ⟨x, hx⟩ := Option.isSome_iff_exists.1 hx
  have hend := hends.ends trivial hs hx
  cases q with
  | pure code =>
    cases hx
    obtain ⟨rfl, hout⟩ := hend
    refine ⟨files', hs, ?_⟩
    rw [hout]
    decide +kernel
  | throw e =>
    cases hx
    exact hend.elim
  | call c k => cases hx

theorem sampleDigest_printsHex : PrintsHex sampleDigest := by
  intro state
  apply List.all_eq_true.1
  simp only [sampleDigest]
  split_ifs <;> decide

theorem sampleHelper_returns : ∃ w, Prog.Steps (ProcessNext sampleHelper)
    (LocalBlobHasher.hashDescriptors (text "python") sampleRequests .sha1)
    (.initial sampleHelper) (.pure sampleDigests) w := by
  have hchunks : ∀ pipe, (sampleHelper.output pipe).length ≤ gitReadChunkBytes := by
    intro pipe
    cases pipe <;> decide +kernel
  obtain ⟨w, hcode, hs⟩ := captured_steps hchunks
    (LocalBlobHasher.helperCommand (text "python") .sha1 sampleRequests)
    "Cannot start tracked worktree hashing" LocalBlobHasher.hashOwner
    (LocalBlobHasher.digestsFrom sampleRequests .sha1)
  have hascii : LocalBlobHasher.decodeAscii (sampleHelper.output .stdout) =
      some (terminate 0x0A sampleDigests) := by decide +kernel
  have hdigests : LocalBlobHasher.digestsOf .sha1 2 (some 0) (terminate 0x0A sampleDigests) [] =
      .ok sampleDigests := by
    have hsplit : LocalRepositoryInspector.splitLines [] false (terminate 0x0A sampleDigests) =
        sampleDigests := by decide +kernel
    have hlength : ∀ digest ∈ sampleDigests, digest.length = 40 := by decide +kernel
    have hhex : ∀ digest ∈ sampleDigests, digest.all LocalBlobHasher.isHexDigit = true := by
      decide +kernel
    have hchars : ∀ digest ∈ sampleDigests, ∀ c ∈ digest, LocalBlobHasher.isHexDigit c = true :=
      fun digest hm => List.all_eq_true.1 (hhex digest hm)
    rw [LocalBlobHasher.digestsOf, hsplit]
    apply if_neg
    simp only [not_or, not_not, not_exists, not_and, Bool.not_eq_false]
    exact ⟨trivial, trivial, rfl, hlength, hchars, rfl⟩
  have hend : Prog.Steps (ProcessNext sampleHelper)
      (LocalBlobHasher.digestsFrom sampleRequests .sha1
        (sampleHelper.output .stdout, sampleHelper.output .stderr)) w (.pure sampleDigests) w := by
    rw [LocalBlobHasher.digestsFrom]
    simp only [hascii]
    have hanswer : ProcessNext sampleHelper w .returncode (.ok w.returncode) w := .returncode
    apply Prog.Steps.answer hanswer
    rw [hcode]
    change Prog.Steps _ (Prog.ofExcept (LocalBlobHasher.digestsOf .sha1 2 (some 0) _ [])) w _ w
    rw [hdigests]
    exact .refl
  exact ⟨w, hs.trans hend⟩

/-- The helper's digests of the sample's files are returned. -/
theorem sample_hashed : ∃ w, Prog.Steps (ProcessNext sampleHelper)
      (LocalBlobHasher.hashDescriptors (text "python") sampleRequests .sha1)
      (.initial sampleHelper) (.pure sampleDigests) w ∧
    AllFull sampleFiles sampleRequests ∧
      sampleDigests = sampleRequests.map (requestedBlob sampleDigest sampleFiles .sha1) := by
  obtain ⟨w, hrun⟩ := sampleHelper_returns
  exact ⟨w, hrun, hashDescriptors_exact sampleDigest_printsHex (by decide) rfl
    sampleHelper_runs hrun⟩

/-- A worktree of the files that the sample's helper reads. -/
def inheritedWorktree : Worktree := fun place =>
  if place = [text "empty"] then some ⟨⟨0, 1, 0o100644, 0, 0, 0⟩, [], fun _ => rfl⟩
  else if place = [text "ab"] then some ⟨⟨0, 2, 0o100644, 2, 0, 0⟩, [0x61, 0x62], fun _ => rfl⟩
  else none

def inheritedPlaces : LocalRepositoryInspector.Places := fun descriptor =>
  if descriptor = 5 then some [text "empty"] else if descriptor = 3 then some [text "ab"] else none

def inheritedSurroundings : LocalRepositoryInspector.Surroundings where
  worktree := inheritedWorktree
  place path := pathParts path.text
  hasher requests algorithm := .ok (requests.map fun request =>
    hashGitBlob sampleDigest.digestOf algorithm (request.blob inheritedWorktree))
  git _ := ⟨0, [], []⟩

theorem sample_inherits :
    Inherits inheritedSurroundings inheritedPlaces sampleFiles sampleRequests where
  printed := rfl
  opened request hm := by
    obtain rfl | hm := List.mem_cons.1 hm
    · exact ⟨[text "empty"], _, rfl, rfl, rfl⟩
    · rw [List.mem_singleton.1 hm]
      exact ⟨[text "ab"], _, rfl, rfl, rfl⟩

/-- The sample's digests are an answer to the inspection that asks for them. -/
theorem sample_answers : LocalRepositoryInspector.Answers inheritedSurroundings inheritedPlaces
    (.hashDescriptors (sampleRequests.map asRequested) .sha1) (.ok sampleDigests)
    inheritedPlaces := by
  obtain ⟨w, hrun⟩ := sampleHelper_returns
  exact hashDescriptors_answers sampleDigest_printsHex sample_inherits
    (fun _ _ _ _ => rfl) sampleHelper_runs hrun rfl

/-- A command that prints a branch. -/
def sampleGit : Behaviour where
  output
    | .stdout => asciiBytes (text "main\n")
    | .stderr => []
  code := 0

/-- The output of the sample's command is returned. -/
theorem sample_command : ∃ result w, Prog.Steps (ProcessNext sampleGit)
      (LocalCommandRunner.runReadOnly [text "git"] (PurePath.ofText (text "/")))
      (.initial sampleGit) (.pure result) w ∧
    result = ⟨0, decodeSurrogateEscape (sampleGit.output .stdout),
        decodeSurrogateEscape (sampleGit.output .stderr)⟩ ∧
      ∀ pipe, (sampleGit.output pipe).length ≤ gitOutputLimitBytes := by
  have hchunks : ∀ pipe, (sampleGit.output pipe).length ≤ gitReadChunkBytes := by
    intro pipe
    cases pipe <;> decide +kernel
  obtain ⟨w, -, hs⟩ := captured_steps hchunks
    ⟨[text "git"], PurePath.ofText (text "/"), gitEnvironment, []⟩
    "Cannot start Git repository inspection" gitOwner LocalCommandRunner.resultFrom
  have hend : Prog.Steps (ProcessNext sampleGit)
      (LocalCommandRunner.resultFrom (sampleGit.output .stdout, sampleGit.output .stderr)) w
      (.pure ⟨w.returncode.getD 0, decodeSurrogateEscape (sampleGit.output .stdout),
        decodeSurrogateEscape (sampleGit.output .stderr)⟩) w := by
    have hanswer : ProcessNext sampleGit w .returncode (.ok w.returncode) w := .returncode
    exact Prog.Steps.answer hanswer .refl
  have hrun := hs.trans hend
  exact ⟨_, w, hrun, runReadOnly_exact hrun⟩

end Sample

end OwnedSubprocess

end GoalRouter
