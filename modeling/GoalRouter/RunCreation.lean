import Mathlib.Logic.Function.Basic
import GoalRouter.RunStore
import GoalRouter.SnapshotAtomicity

namespace GoalRouter
open Library
set_option autoImplicit true

/-- The directory of a run: its event log, and the directory as far as its snapshot goes. -/
structure RunDirectory where
  events : Option (Inode CodePoint)
  disk : Disk CodePoint

def RunDirectory.empty : RunDirectory := ⟨none, .empty⟩

/-- What a name in the state root stands for. -/
inductive StoreEntry where
  | directory (dir : RunDirectory)
  | other

/-- What the path of the state root leads to. -/
inductive StateRoot where
  | absent
  | notDirectory
  | directory (entries : Text → Option StoreEntry)

namespace StateRoot

/-- The directory of a run, if there is one. -/
def run? : StateRoot → Text → Option RunDirectory
  | .directory entries, runId => match entries runId with
    | some (.directory dir) => some dir
    | _ => none
  | _, _ => none

def putRun (root : StateRoot) (runId : Text) (dir : RunDirectory) : StateRoot :=
  match root with
  | .directory entries =>
    .directory (Function.update entries runId (some (.directory dir)))
  | root => root

/-- The root with its directory made, if there was none. -/
def made : StateRoot → StateRoot
  | .absent => .directory fun _ => none
  | root => root

/-- A run of that id can be created: nothing has its name. -/
def Free : StateRoot → Text → Prop
  | .absent, _ => True
  | .notDirectory, _ => False
  | .directory entries, runId => entries runId = none

end StateRoot

/-- The file system steps of `_create_sync`, by which one fails. -/
inductive StoreStep where
  | makeRoot
  | makeRun
  | openEvents
  | writeEvents
  | closeEvents
  | createTemporary
  | writeSnapshot
  | flushSnapshot
  | syncSnapshot
  | closeSnapshot
  | replaceSnapshot
  | unlinkTemporary
  deriving DecidableEq

inductive StoreCall where
  | makeRoot
  | makeRun (runId : Text)
  | openEvents (runId : Text)
  | writeEvents (runId : Text) (content : Text)
  | closeEvents (runId : Text)
  | snapshot (runId : Text) (c : FileCall CodePoint)

def StoreVal : StoreCall → Type
  | .snapshot _ c => FileVal c
  | _ => Unit

abbrev StoreProgram (α : Type) := Prog StoreVal PyError α

def fileStep : FileCall CodePoint → StoreStep
  | .create => .createTemporary
  | .write _ _ => .writeSnapshot
  | .flush _ => .flushSnapshot
  | .sync _ => .syncSnapshot
  | .close _ => .closeSnapshot
  | .replace _ => .replaceSnapshot
  | .unlink _ => .unlinkTemporary

/-- `path.write_text(content)` of the event log. -/
def writeEventLog (runId content : Text) : StoreProgram Unit := do
  Prog.invoke (StoreCall.openEvents runId)
  match ← (Prog.invoke (StoreCall.writeEvents runId content) : StoreProgram Unit).attempt with
  | .ok () => Prog.invoke (StoreCall.closeEvents runId)
  | .error e =>
    Prog.invoke (StoreCall.closeEvents runId)
    .throw e

/-- `_atomic_write_json` of the snapshot. -/
def writeSnapshot (runId content : Text) : StoreProgram Unit :=
  (atomicWriteText content).embed (StoreCall.snapshot runId) fun _ v => v

section Create

variable (host : Host) (dumps : Json → Text) (s : RunState)

/-- `_create_sync` with its file system steps. -/
def createRunSync : StoreProgram Unit := do
  Prog.invoke StoreCall.makeRoot
  Prog.invoke (StoreCall.makeRun s.runId)
  writeEventLog s.runId []
  writeSnapshot s.runId (stateText dumps s)

/-- `JsonRunStore.create`, where each failing step raises an `OSError`. -/
def createStoredRun : StoreProgram Unit := do
  let runId ← .ofExcept (validateRunId host s.runId)
  match ← (createRunSync dumps s).attempt with
  | .ok () => return
  | .error e => .throw (stateError (text "Cannot create run " ++ runId ++ text ": " ++ e.message))

end Create

/-- How the file system answers if the given steps fail. A failing step raises; it may have done
part of its work on a file, and none on a directory. -/
inductive StoreNext (fails : StoreStep → Bool) : Prog.Answers StoreVal PyError StateRoot where
  | rootMade (hf : fails .makeRoot = false) (hr : root ≠ .notDirectory) :
      StoreNext fails root .makeRoot (.ok ()) root.made
  | rootRefused (hf : fails .makeRoot = true ∨ root = .notDirectory) :
      StoreNext fails root .makeRoot (.error e) root
  | runMade (hf : fails .makeRun = false) (hn : entries runId = none) :
      StoreNext fails (.directory entries) (.makeRun runId) (.ok ())
        ((StateRoot.directory entries).putRun runId .empty)
  | runRefused (hf : fails .makeRun = true ∨ ¬root.Free runId) :
      StoreNext fails root (.makeRun runId) (.error e) root
  | eventsOpened (hf : fails .openEvents = false) (hd : root.run? runId = some dir) :
      StoreNext fails root (.openEvents runId) (.ok ())
        (root.putRun runId { dir with events := some ⟨[], []⟩ })
  | eventsRefused (hf : fails .openEvents = true) (hd : root.run? runId = some dir)
      (he : events = dir.events ∨ events = some ⟨[], []⟩) :
      StoreNext fails root (.openEvents runId) (.error e) (root.putRun runId { dir with events })
  | eventsWritten (hd : root.run? runId = some dir) (he : dir.events = some ⟨stored, buffer⟩)
      (hb : given ++ kept = buffer ++ content)
      (hf : fails .writeEvents = true ↔ r.isOk = false) :
      StoreNext fails root (.writeEvents runId content) r
        (root.putRun runId { dir with events := some ⟨stored ++ given, kept⟩ })
  | eventsClosed (hf : fails .closeEvents = false) (hd : root.run? runId = some dir)
      (he : dir.events = some ⟨stored, buffer⟩) :
      StoreNext fails root (.closeEvents runId) (.ok ())
        (root.putRun runId { dir with events := some ⟨stored ++ buffer, []⟩ })
  | eventsUnclosed (hf : fails .closeEvents = true) (hd : root.run? runId = some dir)
      (he : dir.events = some ⟨stored, buffer⟩) (hb : given ++ kept = buffer) :
      StoreNext fails root (.closeEvents runId) (.error e)
        (root.putRun runId { dir with events := some ⟨stored ++ given, []⟩ })
  | snapshotStep (hd : root.run? runId = some dir) (hn : FileNext dir.disk c r d)
      (hf : fails (fileStep c) = true ↔ r.isOk = false) :
      StoreNext fails root (.snapshot runId c) r (root.putRun runId { dir with disk := d })

/-- The steps that are taken once the directory of the run is there. A temporary file is unlinked
only after another step has failed. -/
def laterSteps : List StoreStep := [.openEvents, .writeEvents, .closeEvents, .createTemporary,
  .writeSnapshot, .flushSnapshot, .syncSnapshot, .closeSnapshot, .replaceSnapshot]

def snapshotSteps : List StoreStep := [.createTemporary, .writeSnapshot, .flushSnapshot,
  .syncSnapshot, .closeSnapshot, .replaceSnapshot]

/-- The directory of a run that has been created. -/
def createdDirectory (dumps : Json → Text) (s : RunState) : RunDirectory :=
  ⟨some ⟨[], []⟩, Disk.empty.publish (stateText dumps s)⟩

namespace StateRoot

variable {root : StateRoot}

theorem made_eq_self (h : root ≠ .absent) : root.made = root := by
  cases root with
  | absent => exact absurd rfl h
  | notDirectory => rfl
  | directory => rfl

theorem free_made : root.made.Free runId ↔ root.Free runId := by
  cases root with
  | absent => exact ⟨fun _ => trivial, fun _ => rfl⟩
  | notDirectory => rfl
  | directory => rfl

theorem made_directory (h : root ≠ .notDirectory) : ∃ entries, root.made = .directory entries := by
  cases root with
  | absent => exact ⟨_, rfl⟩
  | notDirectory => exact absurd rfl h
  | directory entries => exact ⟨entries, rfl⟩

@[simp] theorem run?_putRun (entries : Text → Option StoreEntry) (runId : Text)
    (dir : RunDirectory) :
    ((StateRoot.directory entries).putRun runId dir).run? runId = some dir := by
  rw [putRun, run?, Function.update_self]

@[simp] theorem putRun_putRun (root : StateRoot) (runId : Text) (dir dir' : RunDirectory) :
    (root.putRun runId dir).putRun runId dir' = root.putRun runId dir' := by
  cases root with
  | absent => rfl
  | notDirectory => rfl
  | directory entries => rw [putRun, putRun, putRun, Function.update_idem]

theorem not_free_of_run (h : root.run? runId = some dir) : ¬root.Free runId := by
  cases root with
  | absent => cases h
  | notDirectory => exact id
  | directory entries =>
    intro hn
    rw [Free] at hn
    rw [run?, hn] at h
    cases h

theorem not_free_putRun (h : root.Free runId) : ¬(root.made.putRun runId dir).Free runId := by
  have hr : root ≠ .notDirectory := by
    rintro rfl
    exact h
  obtain ⟨entries, he⟩ := made_directory hr
  rw [he]
  exact not_free_of_run (run?_putRun entries runId dir)

end StateRoot

variable {fails : StoreStep → Bool}

/-- How files answer if the given steps fail. -/
def FailingNext (fails : StoreStep → Bool) :
    Prog.Answers (FileVal (β := CodePoint)) PyError (Disk CodePoint) :=
  fun d c r d' => FileNext d c r d' ∧ (fails (fileStep c) = true ↔ r.isOk = false)

/-- Run where steps fail, the program returns if none of its own do, and raises otherwise. -/
abbrev Heeds (fails : StoreStep → Bool) (steps : List StoreStep) (p : TextProgram α)
    (d : Disk CodePoint) : Prop :=
  p.Safe (FailingNext fails) (fun _ => True) (fun _ _ => ∀ step ∈ steps, fails step = false)
    (fun _ _ => ∃ step ∈ steps, fails step = true) d

theorem heeds_invoke (c : FileCall CodePoint) (d : Disk CodePoint) :
    Heeds fails [fileStep c] (Prog.invoke c) d := by
  apply Prog.Safe.invoke
  intro r d' hn
  refine ⟨trivial, ?_⟩
  cases r with
  | ok =>
    intro step hm
    rw [List.mem_singleton.1 hm]
    exact Bool.eq_false_iff.2 fun hf => Bool.noConfusion (hn.2.1 hf)
  | error e => exact ⟨_, List.mem_cons_self, hn.2.2 rfl⟩

theorem Heeds.bind {p : TextProgram α} {f : α → TextProgram β} (h : Heeds fails steps p d)
    (hf : ∀ a d, Heeds fails steps' (f a) d) : Heeds fails (steps ++ steps') (p >>= f) d := by
  have hp : p.Safe _ _ _ (fun _ _ => ∃ step ∈ steps ++ steps', fails step = true) d :=
    h.mono (fun _ _ h => h) fun _ _ ⟨step, hm, he⟩ => ⟨step, List.mem_append_left _ hm, he⟩
  apply hp.bind
  intro a d' ha
  apply (hf a d').mono
  · exact fun _ _ h step hm => (List.mem_append.1 hm).elim (ha step) (h step)
  · exact fun _ _ ⟨step, hm, he⟩ => ⟨step, List.mem_append_right _ hm, he⟩

/-- What is done on the way to an exception does not turn it into a return. -/
theorem heeds_raising (h : ∃ step ∈ steps, fails step = true) (p : TextProgram Unit) (e : PyError)
    (d : Disk CodePoint) : Heeds fails steps (p >>= fun _ => (.throw e : TextProgram α)) d := by
  apply Prog.Safe.bind ((Prog.Safe.any p d).mono (fun _ _ _ => trivial) fun _ _ _ => h)
  exact fun _ _ _ => h

theorem Heeds.attempt_bind {p : TextProgram α} {f : Except PyError α → TextProgram β}
    (h : Heeds fails steps p d) (hok : ∀ a d, Heeds fails steps' (f (.ok a)) d)
    (herror : ∀ e d, (∃ step ∈ steps ++ steps', fails step = true) →
      Heeds fails (steps ++ steps') (f (.error e)) d) :
    Heeds fails (steps ++ steps') (p.attempt >>= f) d := by
  apply Prog.Safe.attempt_bind h
  intro r d' hr
  cases r with
  | ok a =>
    apply (hok a d').mono
    · exact fun _ _ h step hm => (List.mem_append.1 hm).elim (hr step) (h step)
    · exact fun _ _ ⟨step, hm, he⟩ => ⟨step, List.mem_append_right _ hm, he⟩
  | error e =>
    obtain ⟨step, hm, he⟩ := hr
    exact herror e d' ⟨step, List.mem_append_left _ hm, he⟩

theorem writeTemporary_heeds (file : Nat) (content : Text) (d : Disk CodePoint) :
    Heeds fails [.writeSnapshot, .flushSnapshot, .syncSnapshot]
      (writeTemporary file content) d := by
  apply Heeds.bind (heeds_invoke (.write file content) d)
  intro _ d
  apply Heeds.bind (heeds_invoke (.flush file) d)
  exact fun _ d => heeds_invoke (.sync file) d

theorem fillAndReplace_heeds (file : Nat) (content : Text) (d : Disk CodePoint) :
    Heeds fails [.writeSnapshot, .flushSnapshot, .syncSnapshot, .closeSnapshot, .replaceSnapshot]
      (fillAndReplace file content) d := by
  have hstream : Heeds fails [.writeSnapshot, .flushSnapshot, .syncSnapshot, .closeSnapshot]
      (withStream file (writeTemporary file content)) d := by
    apply Heeds.attempt_bind (writeTemporary_heeds file content d)
    · exact fun _ d => heeds_invoke (.close file) d
    · exact fun e d h => heeds_raising h _ e d
  apply Heeds.bind hstream
  exact fun _ d => heeds_invoke (.replace file) d

theorem atomicWriteText_heeds (content : Text) (d : Disk CodePoint) :
    Heeds fails snapshotSteps (atomicWriteText content) d := by
  apply Heeds.bind (heeds_invoke .create d)
  intro file d
  apply @Heeds.attempt_bind fails _ _ _ d [] _ _ (fillAndReplace_heeds file content d)
  · exact fun _ _ _ hm => absurd hm List.not_mem_nil
  · exact fun e d h => heeds_raising h _ e d

/-- The store with the directory of a run in the given state. -/
abbrev WithRun (entries : Text → Option StoreEntry) (runId : Text) (dir : RunDirectory) :
    StateRoot :=
  (StateRoot.directory entries).putRun runId dir

/-- The directory of the run stays there, whatever is in it. -/
def HasRun (entries : Text → Option StoreEntry) (runId : Text) (root : StateRoot) : Prop :=
  ∃ dir, root = WithRun entries runId dir

/-- A part of the creation that works on the directory of the run: it leaves a given content if
none of its steps fail, and raises otherwise. -/
abbrev Fulfils (fails : StoreStep → Bool) (steps : List StoreStep)
    (entries : Text → Option StoreEntry) (runId : Text) (dir : RunDirectory) (p : StoreProgram Unit)
    (root : StateRoot) : Prop :=
  p.Safe (StoreNext fails) (HasRun entries runId)
    (fun _ root' => (∀ step ∈ steps, fails step = false) ∧ root' = WithRun entries runId dir)
    (fun _ root' => (∃ step ∈ steps, fails step = true) ∧ HasRun entries runId root') root

variable {entries : Text → Option StoreEntry} {runId : Text}

theorem closeEvents_raising (hf : fails .writeEvents = true) (e : PyError) (dir : RunDirectory) :
    Fulfils fails [.openEvents, .writeEvents, .closeEvents] entries runId dir' (do
      Prog.invoke (StoreCall.closeEvents runId)
      .throw e) (WithRun entries runId dir) := by
  have hs : ∃ step ∈ [StoreStep.openEvents, .writeEvents, .closeEvents], fails step = true :=
    ⟨_, List.mem_cons_of_mem _ List.mem_cons_self, hf⟩
  apply Prog.Safe.bind (Q := fun _ root => HasRun entries runId root)
  · apply Prog.Safe.invoke
    intro r root' hn
    cases hn with
    | eventsClosed _ hd _ =>
      rw [StateRoot.putRun_putRun]
      exact ⟨⟨_, rfl⟩, _, rfl⟩
    | eventsUnclosed _ hd _ _ =>
      rw [StateRoot.putRun_putRun]
      exact ⟨⟨_, rfl⟩, hs, _, rfl⟩
  · exact fun _ _ h => ⟨hs, h⟩

theorem writeEventLog_fulfils (events : Option (Inode CodePoint)) (d : Disk CodePoint) :
    Fulfils fails [.openEvents, .writeEvents, .closeEvents] entries runId ⟨some ⟨[], []⟩, d⟩
      (writeEventLog runId []) (WithRun entries runId ⟨events, d⟩) := by
  apply Prog.Safe.bind (Q := fun _ root => fails .openEvents = false ∧
    root = WithRun entries runId ⟨some ⟨[], []⟩, d⟩)
  · apply Prog.Safe.invoke
    intro r root' hn
    cases hn with
    | eventsOpened hf hd =>
      rw [StateRoot.run?_putRun] at hd
      cases hd
      rw [StateRoot.putRun_putRun]
      exact ⟨⟨_, rfl⟩, hf, rfl⟩
    | eventsRefused hf hd _ =>
      rw [StateRoot.putRun_putRun]
      exact ⟨⟨_, rfl⟩, ⟨_, List.mem_cons_self, hf⟩, _, rfl⟩
  rintro _ _ ⟨hopen, rfl⟩
  have hwrite : (Prog.invoke (StoreCall.writeEvents runId []) : StoreProgram Unit).Safe
      (StoreNext fails) (HasRun entries runId)
      (fun _ root => fails .writeEvents = false ∧
        root = WithRun entries runId ⟨some ⟨[], []⟩, d⟩)
      (fun _ root => fails .writeEvents = true ∧
        root = WithRun entries runId ⟨some ⟨[], []⟩, d⟩)
      (WithRun entries runId ⟨some ⟨[], []⟩, d⟩) := by
    apply Prog.Safe.invoke
    intro r root' hn
    cases hn with
    | eventsWritten hd he hb hf =>
      rw [StateRoot.run?_putRun] at hd
      cases hd
      cases he
      obtain ⟨rfl, rfl⟩ := List.append_eq_nil_iff.1 hb
      rw [StateRoot.putRun_putRun]
      refine ⟨⟨_, rfl⟩, ?_⟩
      cases r with
      | ok => exact ⟨Bool.eq_false_iff.2 fun h => Bool.noConfusion (hf.1 h), rfl⟩
      | error e => exact ⟨hf.2 rfl, rfl⟩
  apply hwrite.attempt_bind
  intro r root' hr
  cases r with
  | error e =>
    obtain ⟨hf, rfl⟩ := hr
    exact closeEvents_raising hf e _
  | ok =>
    obtain ⟨hf, rfl⟩ := hr
    apply Prog.Safe.invoke
    intro r root' hn
    cases hn with
    | eventsClosed hc hd he =>
      rw [StateRoot.run?_putRun] at hd
      cases hd
      cases he
      rw [StateRoot.putRun_putRun]
      refine ⟨⟨_, rfl⟩, ?_, rfl⟩
      simp [hopen, hf, hc]
    | eventsUnclosed hc hd _ _ =>
      rw [StateRoot.putRun_putRun]
      exact ⟨⟨_, rfl⟩, ⟨_, by simp, hc⟩, _, rfl⟩

theorem writeSnapshot_fulfils (events : Option (Inode CodePoint)) (content : Text) :
    Fulfils fails snapshotSteps entries runId ⟨events, Disk.empty.publish content⟩
      (writeSnapshot runId content) (WithRun entries runId ⟨events, .empty⟩) := by
  have hwrites : (atomicWriteText content).Safe (FailingNext fails) _ _ _ .empty :=
    (atomicWriteText_writes .empty content).restrict fun _ _ _ _ h => h.1
  have hboth := hwrites.and (atomicWriteText_heeds content .empty)
  have hanswers : ∀ root d c r root', root = WithRun entries runId ⟨events, d⟩ →
      StoreNext fails root (.snapshot runId c) r root' →
      ∃ d', root' = WithRun entries runId ⟨events, d'⟩ ∧
        FailingNext fails d c (r.map fun v => v) d' := by
    rintro _ d c r root' rfl hn
    cases hn with
    | snapshotStep hd hn hf =>
      rw [StateRoot.run?_putRun] at hd
      cases hd
      refine ⟨_, StateRoot.putRun_putRun .., ?_⟩
      cases r with
      | ok => exact ⟨hn, hf⟩
      | error => exact ⟨hn, hf⟩
  have hsafe := hboth.embed hanswers rfl
  apply (hsafe.weaken fun _ ⟨_, h, _⟩ => (⟨_, h⟩ : HasRun entries runId _)).mono
  · rintro _ _ ⟨_, rfl, rfl, hs⟩
    exact ⟨hs, rfl⟩
  · rintro _ _ ⟨_, rfl, _, hs⟩
    exact ⟨hs, _, rfl⟩

/-- Everything that `_create_sync` may come to, from a given state root. -/
inductive CreateEnd (fails : StoreStep → Bool) (runId : Text) (created : RunDirectory)
    (root : StateRoot) : Except PyError Unit → StateRoot → Prop where
  | created (hroot : fails .makeRoot = false) (hrun : fails .makeRun = false)
      (hfree : root.Free runId) (hlater : ∀ step ∈ laterSteps, fails step = false) :
      CreateEnd fails runId created root (.ok ()) (root.made.putRun runId created)
  | rootRefused (h : fails .makeRoot = true ∨ root = .notDirectory) :
      CreateEnd fails runId created root (.error e) root
  | runRefused (hroot : fails .makeRoot = false)
      (hrun : fails .makeRun = true ∨ ¬root.Free runId) :
      CreateEnd fails runId created root (.error e) root.made
  | abandoned (hroot : fails .makeRoot = false) (hrun : fails .makeRun = false)
      (hfree : root.Free runId) (hlater : ∃ step ∈ laterSteps, fails step = true)
      (dir : RunDirectory) :
      CreateEnd fails runId created root (.error e) (root.made.putRun runId dir)

/-- The run is safe in that it comes to an end that `CreateEnd` has. -/
abbrev EndsCreated (fails : StoreStep → Bool) (runId : Text) (created : RunDirectory)
    (root : StateRoot) (p : StoreProgram Unit) (root' : StateRoot) : Prop :=
  p.Safe (StoreNext fails) (fun _ => True) (fun _ => CreateEnd fails runId created root (.ok ()))
    (fun e => CreateEnd fails runId created root (.error e)) root'

theorem later_ends (dumps : Json → Text) (s : RunState) {root : StateRoot}
    (hroot : fails .makeRoot = false) (hrun : fails .makeRun = false) (hfree : root.Free s.runId)
    (he : root.made = .directory entries) :
    EndsCreated fails s.runId (createdDirectory dumps s) root (do
      writeEventLog s.runId []
      writeSnapshot s.runId (stateText dumps s)) (WithRun entries s.runId .empty) := by
  have habandoned : ∀ (steps : List StoreStep) e root', (∀ step ∈ steps, step ∈ laterSteps) →
      (∃ step ∈ steps, fails step = true) ∧ HasRun entries s.runId root' →
      CreateEnd fails s.runId (createdDirectory dumps s) root (.error e) root' := by
    rintro steps e root' hs ⟨⟨step, hm, hf⟩, dir, rfl⟩
    rw [WithRun, ← he]
    exact .abandoned hroot hrun hfree ⟨step, hs step hm, hf⟩ dir
  have hevents := (@writeEventLog_fulfils fails entries s.runId none .empty).weaken
    fun _ _ => trivial
  apply (hevents.mono (fun _ _ h => h) fun e root' h =>
    habandoned _ e root' (by decide) h).bind
  rintro _ _ ⟨hlog, rfl⟩
  have hsnapshot := (@writeSnapshot_fulfils fails entries s.runId (some ⟨[], []⟩)
    (stateText dumps s)).weaken fun _ _ => trivial
  apply hsnapshot.mono
  · rintro _ _ ⟨hfile, rfl⟩
    rw [WithRun, ← he]
    apply CreateEnd.created hroot hrun hfree
    intro step hm
    exact (List.mem_append.1 (show step ∈ [.openEvents, .writeEvents, .closeEvents] ++
      snapshotSteps from hm)).elim (hlog step) (hfile step)
  · exact fun e root' h => habandoned _ e root' (by decide) h

theorem createRunSync_ends (fails : StoreStep → Bool) (dumps : Json → Text) (s : RunState)
    (root : StateRoot) :
    EndsCreated fails s.runId (createdDirectory dumps s) root (createRunSync dumps s) root := by
  apply Prog.Safe.bind (Q := fun _ root' => fails .makeRoot = false ∧ root ≠ .notDirectory ∧
    root' = root.made)
  · apply Prog.Safe.invoke
    intro r root' hn
    cases hn with
    | rootMade hf hr => exact ⟨trivial, hf, hr, rfl⟩
    | rootRefused hf => exact ⟨trivial, .rootRefused hf⟩
  rintro _ _ ⟨hroot, hr, rfl⟩
  obtain ⟨entries, he⟩ := StateRoot.made_directory hr
  apply Prog.Safe.bind (Q := fun _ root' => fails .makeRun = false ∧ root.Free s.runId ∧
    root' = WithRun entries s.runId .empty)
  · apply Prog.Safe.invoke
    intro r root' hn
    generalize hg : root.made = root₀ at hn
    cases hn with
    | runMade hf hn =>
      rw [he] at hg
      cases hg
      refine ⟨trivial, hf, StateRoot.free_made.1 ?_, rfl⟩
      rw [he]
      exact hn
    | runRefused hf =>
      rw [← hg] at hf ⊢
      rw [StateRoot.free_made] at hf
      exact ⟨trivial, .runRefused hroot hf⟩
  rintro _ _ ⟨hrun, hfree, rfl⟩
  exact later_ends dumps s hroot hrun hfree he

/-- What `create` may come to: an id that is refused leaves the store alone. -/
theorem createStoredRun_ends (fails : StoreStep → Bool) (host : Host) (dumps : Json → Text)
    (s : RunState) (root : StateRoot) :
    (createStoredRun host dumps s).Safe (StoreNext fails) (fun _ => True)
      (fun _ root' => isRunId s.runId = true ∧
        CreateEnd fails s.runId (createdDirectory dumps s) root (.ok ()) root')
      (fun e root' => isRunId s.runId = false ∧ root' = root ∨ isRunId s.runId = true ∧
        CreateEnd fails s.runId (createdDirectory dumps s) root (.error e) root') root := by
  apply Prog.Safe.bind (Q := fun _ root' => isRunId s.runId = true ∧ root' = root)
  · rw [validateRunId]
    split
    next h => exact ⟨h, rfl⟩
    next h => exact .inl ⟨Bool.eq_false_iff.2 h, rfl⟩
  rintro runId root' ⟨hid, he⟩
  rw [he]
  apply (createRunSync_ends fails dumps s root).attempt_bind
  intro r root' hr
  cases r with
  | ok => exact ⟨hid, hr⟩
  | error e =>
    refine .inr ⟨hid, ?_⟩
    cases hr with
    | rootRefused h => exact .rootRefused h
    | runRefused hroot hrun => exact .runRefused hroot hrun
    | abandoned hroot hrun hfree hlater dir => exact .abandoned hroot hrun hfree hlater dir

/-- A call of `create` comes to this end. -/
def Creates (host : Host) (dumps : Json → Text) (fails : StoreStep → Bool) (s : RunState)
    (root : StateRoot) (r : Except PyError Unit) (root' : StateRoot) : Prop :=
  ∃ p, Prog.Steps (StoreNext fails) (createStoredRun host dumps s) root p root' ∧
    p.outcome? = some r

/-- While no step fails, every `create` with that id succeeds. -/
def Creatable (host : Host) (dumps : Json → Text) (root : StateRoot) (runId : Text) : Prop :=
  ∀ s : RunState, s.runId = runId →
    (∃ root', Creates host dumps (fun _ => false) s root (.ok ()) root') ∧
      ∀ r root', Creates host dumps (fun _ => false) s root r root' → r = .ok ()

theorem Creates.ends {host : Host} {dumps : Json → Text} {s : RunState} {root root' : StateRoot}
    {r : Except PyError Unit} (h : Creates host dumps fails s root r root') :
    (isRunId s.runId = false ∧ root' = root ∧ ∃ e, r = .error e) ∨
      (isRunId s.runId = true ∧
        CreateEnd fails s.runId (createdDirectory dumps s) root r root') := by
  obtain ⟨p, hs, ho⟩ := h
  have he := (createStoredRun_ends fails host dumps s root).ends trivial hs ho
  cases r with
  | ok => exact .inr he
  | error e =>
    rcases he with ⟨hid, he⟩ | he
    · exact .inl ⟨hid, he, _, rfl⟩
    · exact .inr he

theorem StoreNext.eventsWritten_empty {dir : RunDirectory} (hf : fails .writeEvents = false)
    (he : dir.events = some ⟨[], []⟩) :
    StoreNext fails (WithRun entries runId dir) (.writeEvents runId []) (.ok ())
      (WithRun entries runId dir) := by
  have hn : StoreNext fails (WithRun entries runId dir) (.writeEvents runId []) (.ok ())
      ((WithRun entries runId dir).putRun runId { dir with events := some ⟨[] ++ [], []⟩ }) :=
    .eventsWritten (StateRoot.run?_putRun ..) he rfl
      ⟨fun h => absurd (hf.symm.trans h) Bool.false_ne_true, fun h => Bool.noConfusion h⟩
  rw [StateRoot.putRun_putRun, List.append_nil, ← he] at hn
  exact hn

theorem createRunSync_begins (dumps : Json → Text) (s : RunState) {root : StateRoot}
    (hfree : root.Free s.runId) (he : root.made = .directory entries)
    (hf : ∀ step ∈ [StoreStep.makeRoot, .makeRun, .openEvents, .writeEvents, .closeEvents],
      fails step = false) :
    Prog.Steps (StoreNext fails) (createRunSync dumps s) root
      (writeSnapshot s.runId (stateText dumps s))
      (WithRun entries s.runId ⟨some ⟨[], []⟩, .empty⟩) := by
  have hr : root ≠ .notDirectory := by
    rintro rfl
    exact hfree
  have hn : entries s.runId = none := by
    have h := StateRoot.free_made.2 hfree
    rwa [he] at h
  have hmade := StoreNext.rootMade (hf _ (by simp)) hr
  rw [he] at hmade
  have hopened := StoreNext.eventsOpened (hf .openEvents (by simp))
    (StateRoot.run?_putRun entries s.runId .empty)
  have hclosed : StoreNext fails (WithRun entries s.runId ⟨some ⟨[], []⟩, .empty⟩)
      (.closeEvents s.runId) (.ok ()) _ :=
    .eventsClosed (hf .closeEvents (by simp)) (StateRoot.run?_putRun ..) rfl
  rw [StateRoot.putRun_putRun] at hopened hclosed
  apply Prog.Steps.answer hmade
  apply Prog.Steps.answer (.runMade (hf _ (by simp)) hn)
  apply Prog.Steps.seq
  · apply Prog.Steps.answer hopened
    exact .call (.eventsWritten_empty (hf _ (by simp)) rfl) (.call hclosed .refl)
  · exact .refl

theorem writeSnapshot_steps (hf : ∀ step, fails step = false)
    (entries : Text → Option StoreEntry) (runId : Text) (events : Option (Inode CodePoint))
    (content : Text) :
    Prog.Steps (StoreNext fails) (writeSnapshot runId content)
      (WithRun entries runId ⟨events, .empty⟩) (.pure ())
      (WithRun entries runId ⟨events, Disk.empty.publish content⟩) := by
  have hpasses : Prog.Steps (FailingNext fails) (atomicWriteText content) .empty (.pure ())
      (Disk.empty.publish content) := by
    apply atomicWriteText_passes
    exact fun _ _ _ _ hn => ⟨hn, fun h => absurd ((hf _).symm.trans h) Bool.false_ne_true,
      fun h => Bool.noConfusion h⟩
  have hanswers : ∀ d c r d', FailingNext fails d c r d' →
      ∃ r' : Except PyError (FileVal c), r'.map (fun v => v) = r ∧
        StoreNext fails (WithRun entries runId ⟨events, d⟩) (.snapshot runId c) r'
          (WithRun entries runId ⟨events, d'⟩) := by
    intro d c r d' hn
    refine ⟨r, by cases r <;> rfl, ?_⟩
    have hs := StoreNext.snapshotStep (StateRoot.run?_putRun entries runId ⟨events, d⟩) hn.1 hn.2
    rwa [StateRoot.putRun_putRun] at hs
  have hsteps : Prog.Steps (StoreNext fails)
      ((atomicWriteText content).embed (StoreCall.snapshot runId) fun _ v => v) _ _ _ :=
    hpasses.embed hanswers
  exact hsteps

variable {host : Host} {dumps : Json → Text}

/-- Where no step fails, a run whose id is free can be created, and no other can. -/
theorem creatable_iff : Creatable host dumps root runId ↔
    isRunId runId = true ∧ root.Free runId := by
  constructor
  · intro h
    obtain ⟨⟨root', hc⟩, -⟩ := h (singleState runId []) rfl
    rcases hc.ends with ⟨_, _, _, he⟩ | ⟨hid, he⟩
    · cases he
    · cases he with
      | created _ _ hfree _ => exact ⟨hid, hfree⟩
  · rintro ⟨hid, hfree⟩ s rfl
    constructor
    · have hr : root ≠ .notDirectory := by
        rintro rfl
        exact hfree
      obtain ⟨entries, he⟩ := StateRoot.made_directory hr
      have hbegins := @createRunSync_begins (fun _ => false) _ dumps s root hfree he fun _ _ => rfl
      have hsteps := hbegins.trans (writeSnapshot_steps (fun _ => rfl) entries s.runId
        (some ⟨[], []⟩) (stateText dumps s))
      refine ⟨WithRun entries s.runId (createdDirectory dumps s), .pure (), ?_, rfl⟩
      rw [createStoredRun, validateRunId, if_pos hid]
      exact hsteps.attempt.bind _
    · intro r root' hc
      rcases hc.ends with ⟨hbad, _⟩ | ⟨_, he⟩
      · rw [hid] at hbad
        cases hbad
      · cases he with
        | created => rfl
        | rootRefused h =>
          rcases h with h | rfl
          · cases h
          · exact hfree.elim
        | runRefused _ h => exact h.elim (fun h => by cases h) fun h => absurd hfree h
        | abandoned _ _ _ h =>
          obtain ⟨_, _, h⟩ := h
          cases h

/-- Where a run could be created, the store stays as it is: the directory of the run is not made
in a root that was there, or it is made and nothing fails from then on. -/
def FailsClean (fails : StoreStep → Bool) (s : RunState) (root : StateRoot) : Prop :=
  isRunId s.runId = true → fails .makeRoot = false → root.Free s.runId →
    (fails .makeRun = true ∧ root ≠ .absent) ∨
      (fails .makeRun = false ∧ ∀ step ∈ laterSteps, fails step = false)

/-- Where a run could be created, its id stays free: its directory is not made, or it is made and
nothing fails from then on. -/
def FailsFree (fails : StoreStep → Bool) (s : RunState) (root : StateRoot) : Prop :=
  isRunId s.runId = true → fails .makeRoot = false → root.Free s.runId →
    fails .makeRun = true ∨ ∀ step ∈ laterSteps, fails step = false

theorem failsClean_of_early (h : isRunId s.runId = true → fails .makeRoot = false →
    root.Free s.runId → False) : FailsClean fails s root ∧ FailsFree fails s root :=
  ⟨fun hid hroot hfree => (h hid hroot hfree).elim,
    fun hid hroot hfree => (h hid hroot hfree).elim⟩

theorem exists_not_all {steps : List StoreStep} (h : ∃ step ∈ steps, fails step = true) :
    ¬∀ step ∈ steps, fails step = false := by
  intro hall
  obtain ⟨step, hm, hf⟩ := h
  rw [hall step hm] at hf
  cases hf

/-- A failed `create` leaves the store as it was only under `FailsClean`, and leaves the id of the
run to a later `create` only under `FailsFree`. -/
theorem create_allOrNothing_iff (hc : Creates host dumps fails s root r root') :
    ((∀ e, r = .error e → root' = root) ↔ FailsClean fails s root) ∧
      ((∀ e, r = .error e → Creatable host dumps root s.runId →
        Creatable host dumps root' s.runId) ↔ FailsFree fails s root) := by
  have hcreatable : ∀ root₀, Creatable host dumps root₀ s.runId ↔
      isRunId s.runId = true ∧ root₀.Free s.runId := fun _ => creatable_iff
  simp only [hcreatable]
  rcases hc.ends with ⟨hid, rfl, _⟩ | ⟨hid, he⟩
  · obtain ⟨hclean, hfree⟩ := @failsClean_of_early fails s root' fun h => by
      rw [hid] at h
      cases h
    exact ⟨⟨fun _ => hclean, fun _ _ _ => rfl⟩, fun _ => hfree, fun _ _ _ h => h⟩
  cases he with
  | created _ hrun _ hlater =>
    exact ⟨⟨fun _ _ _ _ => .inr ⟨hrun, hlater⟩, fun _ _ h => by cases h⟩,
      fun _ _ _ _ => .inr hlater, fun _ _ h => by cases h⟩
  | rootRefused h =>
    obtain ⟨hclean, hfree⟩ := @failsClean_of_early fails s root fun _ hroot hfree => by
      rcases h with h | rfl
      · rw [hroot] at h
        cases h
      · exact hfree
    exact ⟨⟨fun _ => hclean, fun _ _ _ => rfl⟩, fun _ => hfree, fun _ _ _ h => h⟩
  | runRefused hroot h =>
    rcases h with hrun | htaken
    · refine ⟨⟨fun hkept _ _ _ => .inl ⟨hrun, ?_⟩, fun hclean _ _ => ?_⟩,
        fun _ _ _ _ => .inl hrun, fun _ _ _ hc => ⟨hc.1, StateRoot.free_made.2 hc.2⟩⟩
      · rintro rfl
        cases hkept _ rfl
      · by_cases hfree : root.Free s.runId
        · rcases hclean hid hroot hfree with ⟨_, ha⟩ | ⟨hrun', _⟩
          · exact StateRoot.made_eq_self ha
          · rw [hrun] at hrun'
            cases hrun'
        · apply StateRoot.made_eq_self
          rintro rfl
          exact hfree trivial
    · obtain ⟨hclean, hfree⟩ := @failsClean_of_early fails s root fun _ _ hfree => htaken hfree
      refine ⟨⟨fun _ => hclean, fun _ _ _ => StateRoot.made_eq_self ?_⟩, fun _ => hfree,
        fun _ _ _ hc => absurd hc.2 htaken⟩
      rintro rfl
      exact htaken trivial
  | abandoned hroot hrun hfree hlater dir =>
    have hnot := exists_not_all hlater
    constructor
    · constructor
      · intro hkept
        have he := hkept _ rfl
        have hn := @StateRoot.not_free_putRun root _ dir hfree
        rw [he] at hn
        exact absurd hfree hn
      · intro hclean
        rcases hclean hid hroot hfree with ⟨hrun', _⟩ | ⟨_, hlater'⟩
        · rw [hrun] at hrun'
          cases hrun'
        · exact absurd hlater' hnot
    · constructor
      · intro hkept
        exact absurd (hkept _ rfl ⟨hid, hfree⟩).2 (StateRoot.not_free_putRun hfree)
      · intro hfails
        rcases hfails hid hroot hfree with hrun' | hlater'
        · rw [hrun] at hrun'
          cases hrun'
        · exact absurd hlater' hnot

/-- Only the temporary file of the snapshot cannot be created. -/
def onlyTemporary (step : StoreStep) : Bool := step = .createTemporary

def noSpace : PyError := ⟨.other (text "OSError"), text "No space left on device"⟩

/-- The snapshot of a new run fails at its temporary file, and its directory is left. -/
theorem stranded_create (dumps : Json → Text) :
    ∃ e, Creates sampleHost dumps onlyTemporary (singleState (text "run") (text "a")) .absent
      (.error e) (WithRun (fun _ => none) (text "run") ⟨some ⟨[], []⟩, .empty⟩) := by
  have hbegins := @createRunSync_begins onlyTemporary _ dumps (singleState (text "run") (text "a"))
    .absent trivial rfl (by decide)
  have hfailed : StoreNext onlyTemporary
      (WithRun (fun _ => none) (text "run") ⟨some ⟨[], []⟩, .empty⟩)
      (.snapshot (text "run") .create) (.error noSpace) _ :=
    .snapshotStep (StateRoot.run?_putRun ..) .uncreated ⟨fun _ => rfl, fun _ => rfl⟩
  rw [StateRoot.putRun_putRun] at hfailed
  have hsteps := hbegins.trans (.call hfailed .refl)
  exact ⟨_, _, hsteps.attempt.bind _, rfl⟩

/-- That failure takes the id of the run. -/
theorem failed_create_takes_id :
    ¬∀ (fails : StoreStep → Bool) (s : RunState) (root : StateRoot) (r : Except PyError Unit)
      (root' : StateRoot), Creates sampleHost (SnapshotFile.indentJson []) fails s root r root' →
      ∀ e, r = .error e → root' = root := by
  intro h
  obtain ⟨e, hc⟩ := stranded_create (SnapshotFile.indentJson [])
  cases h _ _ _ _ _ hc e rfl

/-- A state root that cannot be made is one that nothing is left in. -/
theorem create_allOrNothing_iff_unmade :
    ∃ e, FailsClean (fun step => step = .makeRoot) (singleState (text "run") (text "a")) .absent ∧
      Creates sampleHost (SnapshotFile.indentJson []) (fun step => step = .makeRoot)
        (singleState (text "run") (text "a")) .absent (.error e) .absent := by
  have hfailed : StoreNext (fun step => step = .makeRoot) .absent .makeRoot
      (.error noSpace) .absent := .rootRefused (.inl rfl)
  have hsteps : Prog.Steps (StoreNext fun step => step = .makeRoot)
      (createRunSync (SnapshotFile.indentJson []) (singleState (text "run") (text "a")))
      .absent _ .absent := .call hfailed .refl
  have hc : Creates sampleHost (SnapshotFile.indentJson []) (fun step => step = .makeRoot)
      (singleState (text "run") (text "a")) .absent _ .absent :=
    ⟨_, hsteps.attempt.bind _, rfl⟩
  exact ⟨_, (create_allOrNothing_iff hc).1.1 fun _ _ => rfl, hc⟩

end GoalRouter
