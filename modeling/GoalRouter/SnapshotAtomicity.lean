import GoalRouter.AtomicWrite
import GoalRouter.IdentifierRedaction

namespace GoalRouter
open Library
set_option autoImplicit true

/-- The content of `state.json`, for the `json.dumps(value, indent=2, sort_keys=True)` given. -/
def stateText (dumps : Json → Text) (s : RunState) : Text :=
  dumps (redactJson s.toDict) ++ text "\n"

/-- A save under way: which one it is, the disk it began with, and what is left of it. -/
structure Saving where
  index : Nat
  before : Disk CodePoint
  program : TextProgram Unit

/-- A load that has opened the file: which file that was, and whose snapshot was in place. -/
structure Loading where
  file : Nat
  index : Nat

/-- The snapshot file of a run, with all that was passed to `create` and `save` so far. -/
structure SnapshotFile where
  saves : List RunState
  disk : Disk CodePoint
  /-- The save whose snapshot is in place. -/
  current : Nat
  writer : Option Saving
  /-- The saves that have returned, newest first. -/
  returned : List Nat
  /-- The loads so far, newest first. -/
  loads : List Loading

namespace SnapshotFile

def initial : SnapshotFile := ⟨[], .empty, 0, none, [], []⟩

variable (dumps : Json → Text)

def start (σ : SnapshotFile) (s : RunState) : SnapshotFile :=
  { σ with
    saves := σ.saves ++ [s]
    writer := some ⟨σ.saves.length, σ.disk, atomicWriteText (stateText dumps s)⟩ }

/-- A step of a save is answered; the snapshot in place is its own from when the file moves. -/
def advance (σ : SnapshotFile) (saving : Saving) (d : Disk CodePoint) (p : TextProgram Unit) :
    SnapshotFile :=
  { σ with
    disk := d
    current := if d.target = σ.disk.target then σ.current else saving.index
    writer := some { saving with program := p } }

/-- A save ends. -/
def finish (σ : SnapshotFile) (saving : Saving) (outcome : Except PyError Unit) : SnapshotFile :=
  { σ with
    writer := none
    returned := match outcome with
      | .ok _ => saving.index :: σ.returned
      | .error _ => σ.returned }

/-- `create` and `save` of the holder of the lease one after the other, step by step and never
cancelled, each of them ended by a crash at any point, with loads of any process at any time. -/
inductive Reached : SnapshotFile → Prop where
  | initial : Reached initial
  | start (h : Reached σ) (hn : σ.writer = none) (s : RunState) : Reached (σ.start dumps s)
  | step (h : Reached σ) (hs : σ.writer = some saving) (hp : saving.program = .call c k)
      (hn : FileNext σ.disk c r d) : Reached (σ.advance saving d (k r))
  | finish (h : Reached σ) (hs : σ.writer = some saving)
      (ho : saving.program.outcome? = some outcome) : Reached (σ.finish saving outcome)
  | crash (h : Reached σ) : Reached { σ with writer := none }
  | load (h : Reached σ) (ht : σ.disk.target = some file) :
      Reached { σ with loads := ⟨file, σ.current⟩ :: σ.loads }

/-- The file is closed and holds the snapshot of one save, complete. -/
def Holds (σ : SnapshotFile) (file index : Nat) : Prop :=
  ∃ s, σ.saves[index]? = some s ∧ σ.disk.inodes[file]? = some ⟨stateText dumps s, []⟩

/-- A load finds the snapshot of a save, complete. -/
def Shows (σ : SnapshotFile) (index : Nat) : Prop :=
  ∃ file s, σ.disk.target = some file ∧ σ.saves[index]? = some s ∧
    σ.disk.read file = stateText dumps s

/-- What is known of a save under way. -/
structure Proceeds (σ : SnapshotFile) (saving : Saving) : Prop where
  last : saving.index + 1 = σ.saves.length
  stage : ∃ s, σ.saves[saving.index]? = some s ∧
    WriteStage saving.before (stateText dumps s) σ.disk ∧
      Writes saving.before (stateText dumps s) saving.program σ.disk
  keeps : KeepsTarget saving.before saving.program σ.disk
  placed : σ.disk.target = saving.before.target ∨ σ.current = saving.index
  targets : ∀ file, saving.before.target = some file → file < saving.before.inodes.length
  loads : σ.disk.target = saving.before.target →
    ∀ l ∈ σ.loads, l.file < saving.before.inodes.length

structure Consistent (σ : SnapshotFile) : Prop where
  target : ∀ file, σ.disk.target = some file → σ.Holds dumps file σ.current
  loads : ∀ l ∈ σ.loads, σ.Holds dumps l.file l.index ∧ l.index ≤ σ.current
  sorted : σ.loads.Pairwise fun a b => b.index ≤ a.index
  returned : ∀ index ∈ σ.returned, index ≤ σ.current ∧ ∃ file, σ.disk.target = some file
  writer : ∀ saving, σ.writer = some saving → σ.Proceeds dumps saving

variable {dumps} {σ : SnapshotFile}

theorem Holds.lt (h : σ.Holds dumps file index) :
    file < σ.disk.inodes.length ∧ index < σ.saves.length := by
  obtain ⟨s, hs, hf⟩ := h
  exact ⟨(List.getElem?_eq_some_iff.1 hf).1, (List.getElem?_eq_some_iff.1 hs).1⟩

theorem Holds.start (h : σ.Holds dumps file index) (s : RunState) :
    (σ.start dumps s).Holds dumps file index := by
  have hl := h.lt.2
  obtain ⟨s', hs, hf⟩ := h
  refine ⟨s', ?_, hf⟩
  rw [SnapshotFile.start, List.getElem?_append_left hl]
  exact hs

theorem stage_file {d d' : Disk CodePoint} {content : Text} (h : WriteStage d content d')
    (hf : file < d.inodes.length) : d'.inodes[file]? = d.inodes[file]? := by
  cases h with
  | begun => rfl
  | _ => exact List.getElem?_append_left hf

/-- A write has replaced the file in place, or not. -/
theorem stage_target {d d' : Disk CodePoint} {content : Text} (h : WriteStage d content d') :
    d'.target = d.target ∨ d' = d.publish content := by
  cases h with
  | published => exact .inr rfl
  | _ => exact .inl rfl

theorem consistent_initial : initial.Consistent dumps where
  target _ ht := by cases ht
  loads _ hm := absurd hm List.not_mem_nil
  sorted := .nil
  returned _ hm := absurd hm List.not_mem_nil
  writer _ hs := by cases hs

theorem Consistent.start (h : σ.Consistent dumps) (s : RunState) :
    (σ.start dumps s).Consistent dumps where
  target file ht := (h.target file ht).start s
  loads l hm := ⟨(h.loads l hm).1.start s, (h.loads l hm).2⟩
  sorted := h.sorted
  returned := h.returned
  writer saving hs := by
    cases hs
    refine ⟨by simp [SnapshotFile.start], ⟨s, ?_, .begun, atomicWriteText_writes _ _⟩,
      atomicWriteText_keepsTarget _ _, .inl rfl, fun file ht => (h.target file ht).lt.1,
      fun _ l hm => (h.loads l hm).1.lt.1⟩
    exact List.getElem?_concat_length

theorem Consistent.idle (h : σ.Consistent dumps) : { σ with writer := none }.Consistent dumps where
  target := h.target
  loads := h.loads
  sorted := h.sorted
  returned := h.returned
  writer _ hs := by cases hs

theorem Consistent.load (h : σ.Consistent dumps) (ht : σ.disk.target = some file) :
    { σ with loads := ⟨file, σ.current⟩ :: σ.loads }.Consistent dumps where
  target := h.target
  loads := by
    intro l hm
    rcases List.mem_cons.1 hm with rfl | hm
    · exact ⟨h.target file ht, le_refl _⟩
    · exact h.loads l hm
  sorted := List.pairwise_cons.2 ⟨fun l hm => (h.loads l hm).2, h.sorted⟩
  returned := h.returned
  writer saving hs := by
    have hp := h.writer saving hs
    refine ⟨hp.last, hp.stage, hp.keeps, hp.placed, hp.targets, fun he l hm => ?_⟩
    rcases List.mem_cons.1 hm with rfl | hm
    · exact hp.targets _ (he ▸ ht)
    · exact hp.loads he l hm

theorem Consistent.step {saving : Saving} {k : Except PyError (FileVal c) → TextProgram Unit}
    (h : σ.Consistent dumps) (hs : σ.writer = some saving) (hc : saving.program = .call c k)
    (hn : FileNext σ.disk c r d) : (σ.advance saving d (k r)).Consistent dumps := by
  obtain ⟨hlast, ⟨s, hget, hstage, hw⟩, hkeeps, _, htargets, hloads⟩ := h.writer saving hs
  rw [hc] at hw hkeeps
  obtain ⟨hstage', hw'⟩ := hw r d hn
  -- The call that answers here is made before the file is replaced.
  have hbefore : σ.disk.target = saving.before.target := hkeeps.1
  have hfile (file : Nat) (hf : file < saving.before.inodes.length) :
      d.inodes[file]? = σ.disk.inodes[file]? := by
    rw [stage_file hstage' hf, stage_file hstage hf]
  have hold {file index : Nat} (hf : file < saving.before.inodes.length)
      (hh : σ.Holds dumps file index) : (σ.advance saving d (k r)).Holds dumps file index := by
    obtain ⟨s', hs', hi⟩ := hh
    exact ⟨s', hs', (hfile file hf).trans hi⟩
  have hkept (l : Loading) (hm : l ∈ σ.loads) :
      (σ.advance saving d (k r)).Holds dumps l.file l.index :=
    hold (hloads hbefore l hm) (h.loads l hm).1
  have hplaced : d.target = saving.before.target ∨
      (σ.advance saving d (k r)).current = saving.index := by
    by_cases ht : d.target = saving.before.target
    · exact .inl ht
    · exact .inr (if_neg (hbefore ▸ ht))
  have hproceeds : (σ.advance saving d (k r)).Proceeds dumps { saving with program := k r } :=
    ⟨hlast, ⟨s, hget, hstage', hw'⟩, hkeeps.2 r d hn, hplaced, htargets, fun _ => hloads hbefore⟩
  have hwriter (saving' : Saving) (hs' : (σ.advance saving d (k r)).writer = some saving') :
      (σ.advance saving d (k r)).Proceeds dumps saving' := by
    cases hs'
    exact hproceeds
  rcases stage_target hstage' with ht | rfl
  · have he : d.target = σ.disk.target := ht.trans hbefore.symm
    have hcurrent : (σ.advance saving d (k r)).current = σ.current := if_pos he
    refine ⟨fun file hf => ?_, fun l hm => ⟨hkept l hm, ?_⟩, h.sorted, fun index hm => ?_, hwriter⟩
    · rw [hcurrent]
      have hf : d.target = some file := hf
      exact hold (htargets file (ht ▸ hf)) (h.target file (he ▸ hf))
    · rw [hcurrent]
      exact (h.loads l hm).2
    · obtain ⟨hle, file, hf⟩ := h.returned index hm
      exact ⟨hcurrent ▸ hle, file, he.trans hf⟩
  · have hne : (saving.before.publish (stateText dumps s)).target ≠ σ.disk.target := by
      intro he
      have hlt := htargets _ (hbefore ▸ he.symm)
      omega
    have hcurrent : (σ.advance saving (saving.before.publish (stateText dumps s)) (k r)).current =
        saving.index := if_neg hne
    refine ⟨fun file hf => ?_, fun l hm => ⟨hkept l hm, ?_⟩, h.sorted, fun index hm => ?_, hwriter⟩
    · rw [hcurrent]
      cases hf
      refine ⟨s, hget, ?_⟩
      exact List.getElem?_concat_length
    · rw [hcurrent]
      have hlt := (h.loads l hm).1.lt.2
      omega
    · obtain ⟨hle, file, hf⟩ := h.returned index hm
      have hlt := (h.target file hf).lt.2
      exact ⟨by omega, _, rfl⟩

/-- A save that returns has put its snapshot in place. -/
theorem Proceeds.returns {saving : Saving} (h : σ.Proceeds dumps saving)
    (hp : saving.program = .pure ()) : σ.current = saving.index ∧ σ.Shows dumps saving.index := by
  obtain ⟨s, hget, _, hw⟩ := h.stage
  rw [hp] at hw
  have hd : σ.disk = saving.before.publish (stateText dumps s) := hw
  have hne : σ.disk.target ≠ saving.before.target := by
    intro he
    rw [hd] at he
    have hlt := h.targets _ he.symm
    omega
  refine ⟨h.placed.resolve_left hne, saving.before.inodes.length, s, by rw [hd]; rfl, hget, ?_⟩
  rw [hd, Disk.read, Disk.publish, List.getElem?_concat_length]
  rfl

theorem Consistent.finish {saving : Saving} {outcome : Except PyError Unit}
    (h : σ.Consistent dumps) (hs : σ.writer = some saving)
    (ho : saving.program.outcome? = some outcome) : (σ.finish saving outcome).Consistent dumps where
  target := h.target
  loads := h.loads
  sorted := h.sorted
  returned index hm := by
    cases outcome with
    | error e => exact h.returned index hm
    | ok =>
      have hp : saving.program = .pure () := by
        cases hq : saving.program <;> rw [hq] at ho <;> cases ho
      rcases List.mem_cons.1 hm with rfl | hm
      · obtain ⟨hc, file, _, hf, _⟩ := (h.writer saving hs).returns hp
        exact ⟨hc.ge, file, hf⟩
      · exact h.returned index hm
  writer _ hs := by cases hs

theorem Reached.consistent (h : Reached dumps σ) : σ.Consistent dumps := by
  induction h with
  | initial => exact consistent_initial
  | start _ _ s ih => exact ih.start s
  | step _ hs hp hn ih => exact ih.step hs hp hn
  | finish _ hs ho ih => exact ih.finish hs ho
  | crash _ ih => exact ih.idle
  | load _ ht ih => exact ih.load ht

/-- What a save that has failed leaves behind. -/
structure Failed (σ : SnapshotFile) (saving : Saving) : Prop where
  target : σ.disk.target = saving.before.target
  kept : ∀ file, saving.before.target = some file →
    σ.disk.read file = saving.before.read file
  temporaries : σ.disk.temporaries = saving.before.temporaries ∨
    ∃ file, σ.disk.temporaries = file :: saving.before.temporaries ∧ file ∈ σ.disk.refused

/-- A load decodes one complete snapshot, none after it an older one; a save that returns has put
its snapshot in place, where a later one may replace it, and a save that fails leaves the snapshot
in place and no temporary file but one that could not be removed. -/
theorem snapshots_atomic (h : Reached dumps σ) :
    (∀ l ∈ σ.loads, ∃ s, σ.saves[l.index]? = some s ∧ σ.disk.read l.file = stateText dumps s) ∧
      (σ.loads.Pairwise fun later earlier => earlier.index ≤ later.index) ∧
      (∀ index ∈ σ.returned, index ≤ σ.current ∧ σ.Shows dumps σ.current) ∧
      ∀ saving, σ.writer = some saving →
        (saving.program = .pure () → σ.current = saving.index ∧ σ.Shows dumps saving.index) ∧
          ∀ e, saving.program = .throw e → σ.Failed saving := by
  have hc := h.consistent
  refine ⟨fun l hm => ?_, hc.sorted, fun index hm => ?_, fun saving hs =>
    ⟨(hc.writer saving hs).returns, fun e he => ?_⟩⟩
  · obtain ⟨s, hs, hf⟩ := (hc.loads l hm).1
    exact ⟨s, hs, by rw [Disk.read, hf]; rfl⟩
  · obtain ⟨hle, file, ht⟩ := hc.returned index hm
    obtain ⟨s, hs, hf⟩ := hc.target file ht
    exact ⟨hle, file, s, ht, hs, by rw [Disk.read, hf]; rfl⟩
  · obtain ⟨_, ⟨s, _, hstage, hw⟩, _, _, htargets, _⟩ := hc.writer saving hs
    rw [he] at hw
    have hfailed : WriteFailed saving.before σ.disk := hw
    refine ⟨hfailed.target, fun file hf => ?_, hfailed.temporaries.imp_right fun ht => ⟨_, ht⟩⟩
    rw [Disk.read, Disk.read, stage_file hstage (htargets file hf)]

theorem Reached.steps {saving : Saving} (h : Reached dumps σ) (hs : σ.writer = some saving)
    (hp : Prog.Steps FileNext saving.program σ.disk p d) :
    ∃ current,
      Reached dumps { σ with disk := d, current, writer := some { saving with program := p } } := by
  generalize hq : saving.program = q at hp
  generalize hd : σ.disk = d₀ at hp
  induction hp generalizing σ saving with
  | refl =>
    subst hq hd
    refine ⟨σ.current, ?_⟩
    rwa [← hs]
  | call hn _ ih =>
    have hstep := h.step hs hq (hd ▸ hn)
    obtain ⟨current, hr⟩ := ih hstep rfl rfl rfl
    exact ⟨current, hr⟩

end SnapshotFile

section Abstraction

variable (dumps : Json → Text) (loads : Text → Option Json)

/-- The directory of a run as the operations on it see it. -/
def Disk.view (d : Disk CodePoint) : RunDir :=
  match d.target with
  | none => .empty
  | some file => ((loads (d.read file)).map RunDir.snapshot).getD .empty

variable {dumps loads}

/-- The steps of a save come to what `saveSync` says of them as one, or change nothing. -/
theorem atomicWriteText_refines {d d' : Disk CodePoint}
    (hl : ∀ j, loads (dumps (redactJson j) ++ text "\n") = some (persistJson j))
    (hd : ∀ file, d.target = some file → file < d.inodes.length)
    (h : Prog.Steps FileNext (atomicWriteText (stateText dumps s)) d p d')
    (ho : p.outcome? = some outcome) :
    (outcome = .ok () → saveSync s (Disk.view loads d) = .ok (Disk.view loads d')) ∧
      ∀ e, outcome = .error e → Disk.view loads d' = Disk.view loads d := by
  have hsafe := atomicWriteText_writes d (stateText dumps s)
  have hends := hsafe.ends .begun h ho
  have hstage := (hsafe.steps .begun h).1
  have hpresent : ∀ d : Disk CodePoint, Disk.view loads d ≠ .absent := by
    intro d
    rw [Disk.view]
    cases d.target with
    | none => nofun
    | some file => cases h : loads (d.read file) <;> simp [h]
  constructor
  · rintro rfl
    have hp : d' = d.publish (stateText dumps s) := hends
    have hr : (d.publish (stateText dumps s)).read d.inodes.length = stateText dumps s := by
      rw [Disk.read, Disk.publish, List.getElem?_concat_length]
      rfl
    have hv : Disk.view loads d' = .snapshot (snapshotOf s) := by
      rw [hp, Disk.view]
      simp only [Disk.publish] at hr ⊢
      rw [hr, stateText, hl]
      rfl
    rw [hv]
    cases hc : Disk.view loads d with
    | absent => exact absurd hc (hpresent d)
    | empty => rfl
    | snapshot => rfl
  · rintro e rfl
    have hf : WriteFailed d d' := hends
    rw [Disk.view, Disk.view, hf.target]
    cases ht : d.target with
    | none => rfl
    | some file =>
      have hfile := SnapshotFile.stage_file hstage (hd file ht)
      simp only [Disk.read, hfile]

end Abstraction

namespace SnapshotFile

def sampleError : PyError := ⟨.other (text "OSError"), text "No space left on device"⟩

/-- A write fails, and so does the removal of its temporary file. -/
theorem unremovable_temporary :
    ¬∀ (dumps : Json → Text) (σ : SnapshotFile), Reached dumps σ → ∀ saving e,
      σ.writer = some saving → saving.program = .throw e →
        σ.disk.temporaries = saving.before.temporaries := by
  intro h
  have h₁ (content : Text) : FileNext (E := PyError) (Disk.empty.withTemporary [] [])
      (.write 0 content) (.error sampleError) (Disk.empty.withTemporary [] content) :=
    @FileNext.written _ _ 0 [] content [] content _ _ [] rfl rfl
  have h₂ (content : Text) : FileNext (E := PyError) (Disk.empty.withTemporary [] content)
      (.close 0) (.error sampleError) (Disk.empty.withTemporary [] []) :=
    @FileNext.unclosed _ _ 0 [] content content _ _ [] rfl rfl
  have h₃ : FileNext (E := PyError) (Disk.empty.withTemporary ([] : Text) []) (.unlink 0)
      (.error sampleError) ⟨[⟨[], []⟩], none, [0], [0]⟩ := .refused
  have hs (content : Text) : Prog.Steps FileNext (atomicWriteText content) Disk.empty
      (.throw sampleError) ⟨[⟨[], []⟩], none, [0], [0]⟩ :=
    .call .created (.call (h₁ content) (.call (h₂ content) (.call h₃ .refl)))
  obtain ⟨current, hr⟩ := (Reached.initial.start rfl (singleState (text "run") (text "a"))).steps
    rfl (hs _)
  have ht := h (fun _ => []) _ hr _ _ rfl rfl
  cases ht

/-- The lines of an array or an object between its brackets. -/
def indentBlock (margin : Text) (opening closing : CodePoint) (lines : List Text) : Text :=
  if lines = [] then [opening, closing]
  else
    [opening] ++ joinTexts [0x2C] (lines.map fun line => [0x0A] ++ margin ++ text "  " ++ line) ++
      [0x0A] ++ margin ++ [closing]

mutual
/-- `json.dumps(value, indent=2, sort_keys=True)` of a value in ASCII whose floats are 0 or 1. -/
def indentJson (margin : Text) : Json → Text
  | .arr xs => indentBlock margin 0x5B 0x5D (indentList (margin ++ text "  ") xs)
  | .obj fields => indentBlock margin 0x7B 0x7D
      ((SortedMap.ofList (indentFields (margin ++ text "  ") fields)).entries.map fun e =>
        renderJson (.str e.1) ++ text ": " ++ e.2)
  | j => renderJson j

def indentList (margin : Text) : List Json → List Text
  | [] => []
  | x :: xs => indentJson margin x :: indentList margin xs

def indentFields (margin : Text) : Fields → List (Text × Text)
  | [] => []
  | (k, x) :: fields => (k, indentJson margin x) :: indentFields margin fields
end

example : indentJson [] (.obj [(text "b", .arr [.int 1, .arr []]), (text "a", .null)]) =
    text "\x7b\n  \"a\": null,\n  \"b\": [\n    1,\n    []\n  ]\n\x7d" := by
  decide +kernel

section Sample

def createdState : RunState := singleState (text "run") (text "a")

def savedState : RunState := { createdState with status := .running }

/-- A load while a save has its temporary file decodes the snapshot that the run was created with;
one after the save has returned decodes the new one. -/
theorem saved_snapshot_loaded : ∃ σ, Reached (indentJson []) σ ∧
    σ.saves = [createdState, savedState] ∧ σ.returned = [1, 0] ∧
      σ.loads.map Loading.index = [1, 0] ∧
        ∀ l ∈ σ.loads, ∃ s, σ.saves[l.index]? = some s ∧
          σ.disk.read l.file = stateText (indentJson []) s := by
  have hok (d : Disk CodePoint) (c : FileCall CodePoint) (v : FileVal c) (d' : Disk CodePoint)
      (h : FileNext (E := PyError) d c (.ok v) d') : FileNext (E := PyError) d c (.ok v) d' := h
  -- The run is created.
  obtain ⟨current, h₁⟩ := (Reached.initial.start rfl createdState).steps rfl
    (atomicWriteText_passes hok Disk.empty (stateText (indentJson []) createdState))
  obtain ⟨rfl, _⟩ := ((snapshots_atomic h₁).2.2.2 _ rfl).1 rfl
  -- A save begins and has created its temporary file when the run is loaded.
  have h₂ := (h₁.finish rfl rfl).start rfl savedState
  obtain ⟨k, hk, hfill⟩ := atomicWriteText_filled hok
    (Disk.empty.publish (stateText (indentJson []) createdState))
    (stateText (indentJson []) savedState)
  have h₃ := h₂.step rfl hk .created
  have h₄ := h₃.load rfl
  obtain ⟨current, h₅⟩ := h₄.steps rfl hfill
  obtain ⟨rfl, _⟩ := ((snapshots_atomic h₅).2.2.2 _ rfl).1 rfl
  have h₆ := (h₅.finish rfl rfl).load rfl
  exact ⟨_, h₆, rfl, rfl, rfl, (snapshots_atomic h₆).1⟩

end Sample

end SnapshotFile

end GoalRouter
