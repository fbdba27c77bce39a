import GoalRouter.Errors
import GoalRouter.Library.Files

namespace GoalRouter
open Library
set_option autoImplicit true

abbrev TextProgram (α : Type) := FileProgram CodePoint PyError α

/-- `with stream: ...`: whatever the body comes to, the stream is closed. -/
def withStream (file : Nat) (body : TextProgram Unit) : TextProgram Unit := do
  match ← body.attempt with
  | .ok () => Prog.invoke (FileCall.close file)
  | .error e =>
    Prog.invoke (FileCall.close file)
    .throw e

def writeTemporary (file : Nat) (content : Text) : TextProgram Unit := do
  Prog.invoke (FileCall.write file content)
  Prog.invoke (FileCall.flush file)
  Prog.invoke (FileCall.sync file)

/-- The temporary file is filled and moved into place. -/
def fillAndReplace (file : Nat) (content : Text) : TextProgram Unit := do
  withStream file (writeTemporary file content)
  Prog.invoke (FileCall.replace file)

/-- `_atomic_write_text`. Once the file has been moved into place, its name is not unlinked. -/
def atomicWriteText (content : Text) : TextProgram Unit := do
  let temporary : Nat ← Prog.invoke (FileCall.create (β := CodePoint))
  match ← (fillAndReplace temporary content).attempt with
  | .ok () => return
  | .error e =>
    Prog.invoke (FileCall.unlink temporary)
    .throw e

/-- How far the write of a content has come since the disk was `d`. -/
inductive WriteStage (d : Disk CodePoint) (content : Text) : Disk CodePoint → Prop where
  | begun : WriteStage d content d
  | temporary (stored buffer : Text) : WriteStage d content (d.withTemporary stored buffer)
  | published : WriteStage d content (d.publish content)
  | removed (stored buffer : Text) :
      WriteStage d content { d with inodes := d.inodes ++ [⟨stored, buffer⟩] }
  | left (stored buffer : Text) : WriteStage d content
      { d.withTemporary stored buffer with refused := d.inodes.length :: d.refused }

/-- A write that has failed left the disk as it was, but for a file that nothing names, or one
whose temporary name could not be removed. -/
structure WriteFailed (d d' : Disk CodePoint) : Prop where
  target : d'.target = d.target
  temporaries : d'.temporaries = d.temporaries ∨
    d'.temporaries = d.inodes.length :: d.temporaries ∧ d.inodes.length ∈ d'.refused

variable {d : Disk CodePoint} {content : Text}

/-- The disk has the temporary file, whatever is in it. -/
def HasTemporary (d d' : Disk CodePoint) : Prop :=
  ∃ stored buffer, d' = d.withTemporary stored buffer

/-- Run with the temporary file there, the program leaves it there, complete if it returns. -/
abbrev Fills (d : Disk CodePoint) (content : Text) (p : TextProgram Unit) (d' : Disk CodePoint) :
    Prop :=
  p.Safe (FileNext (E := PyError)) (HasTemporary d) (fun _ d' => d' = d.withTemporary content [])
    (fun _ d' => HasTemporary d d') d'

theorem close_fills (stored buffer : Text) :
    Fills d (stored ++ buffer) (Prog.invoke (FileCall.close d.inodes.length))
      (d.withTemporary stored buffer) := by
  apply Prog.Safe.invoke
  intro r d' hn
  cases hn with
  | closed hf =>
    rw [Disk.withTemporary_file] at hf
    cases hf
    rw [Disk.put_withTemporary]
    exact ⟨⟨_, _, rfl⟩, rfl⟩
  | unclosed hf _ =>
    rw [Disk.withTemporary_file] at hf
    cases hf
    rw [Disk.put_withTemporary]
    exact ⟨⟨_, _, rfl⟩, _, _, rfl⟩

theorem writeTemporary_fills :
    Fills d content (writeTemporary d.inodes.length content) (d.withTemporary [] []) := by
  apply Prog.Safe.bind (Q := fun _ d' => ∃ given kept, given ++ kept = content ∧
    d' = d.withTemporary given kept)
  · apply Prog.Safe.invoke
    intro r d' hn
    cases hn with
    | written hf hb =>
      rw [Disk.withTemporary_file] at hf
      cases hf
      rw [Disk.put_withTemporary]
      refine ⟨⟨_, _, rfl⟩, ?_⟩
      cases r with
      | ok => exact ⟨_, _, hb, rfl⟩
      | error => exact ⟨_, _, rfl⟩
  · rintro _ _ ⟨given, kept, rfl, rfl⟩
    apply Prog.Safe.bind (Q := fun _ d' => d' = d.withTemporary (given ++ kept) [])
    · apply Prog.Safe.invoke
      intro r d' hn
      cases hn with
      | flushed hf =>
        rw [Disk.withTemporary_file] at hf
        cases hf
        rw [Disk.put_withTemporary]
        exact ⟨⟨_, _, rfl⟩, rfl⟩
      | unflushed hf _ =>
        rw [Disk.withTemporary_file] at hf
        cases hf
        rw [Disk.put_withTemporary]
        exact ⟨⟨_, _, rfl⟩, _, _, rfl⟩
    · rintro _ _ rfl
      apply Prog.Safe.invoke
      intro r d' hn
      cases hn with
      | synced =>
        refine ⟨⟨_, _, rfl⟩, ?_⟩
        cases r with
        | ok => rfl
        | error => exact ⟨_, _, rfl⟩

theorem withStream_fills :
    Fills d content (withStream d.inodes.length (writeTemporary d.inodes.length content))
      (d.withTemporary [] []) := by
  apply writeTemporary_fills.attempt_bind
  intro r d' hr
  cases r with
  | ok =>
    cases hr
    have h := close_fills (d := d) content []
    rwa [List.append_nil] at h
  | error e =>
    obtain ⟨stored, buffer, rfl⟩ := hr
    apply (close_fills stored buffer).bind
    exact fun _ _ h => ⟨_, _, h⟩

/-- A write goes through its stages, and ends with its content in place, or has failed. -/
abbrev Writes (d : Disk CodePoint) (content : Text) (p : TextProgram Unit) (d' : Disk CodePoint) :
    Prop :=
  p.Safe (FileNext (E := PyError)) (WriteStage d content) (fun _ d' => d' = d.publish content)
    (fun _ d' => WriteFailed d d') d'

/-- Before each of its steps, a write has not replaced the file in place. -/
abbrev KeepsTarget (d : Disk CodePoint) (p : TextProgram α) (d' : Disk CodePoint) : Prop :=
  p.Calls (FileNext (E := PyError)) (fun d' => d'.target = d.target) d'

theorem HasTemporary.stage {d' : Disk CodePoint} (h : HasTemporary d d') :
    WriteStage d content d' := by
  obtain ⟨stored, buffer, rfl⟩ := h
  exact .temporary stored buffer

theorem HasTemporary.target {d' : Disk CodePoint} (h : HasTemporary d d') :
    d'.target = d.target := by
  obtain ⟨_, _, rfl⟩ := h
  rfl

theorem fillAndReplace_writes :
    (fillAndReplace d.inodes.length content).Safe (FileNext (E := PyError)) (WriteStage d content)
      (fun _ d' => d' = d.publish content) (fun _ d' => HasTemporary d d')
      (d.withTemporary [] []) := by
  apply (withStream_fills.weaken fun _ h => h.stage).bind
  rintro _ _ rfl
  apply Prog.Safe.invoke
  intro r d' hn
  cases hn with
  | replaced =>
    have he : (d.withTemporary content []).temporaries.erase d.inodes.length = d.temporaries :=
      List.erase_cons_head ..
    rw [he]
    exact ⟨.published, rfl⟩
  | unreplaced => exact ⟨.temporary _ _, _, _, rfl⟩

theorem fillAndReplace_keepsTarget :
    KeepsTarget d (fillAndReplace d.inodes.length content) (d.withTemporary [] []) := by
  have hfill := @withStream_fills d content
  apply ((hfill.weaken fun _ h => h.target).calls rfl).bind hfill
  rintro _ _ rfl
  exact .invoke rfl

theorem create_writes :
    (Prog.invoke FileCall.create : TextProgram Nat).Safe FileNext (WriteStage d content)
      (fun file d' => file = d.inodes.length ∧ d' = d.withTemporary [] [])
      (fun _ d' => WriteFailed d d') d := by
  apply Prog.Safe.invoke
  intro r d' hn
  cases hn with
  | created => exact ⟨.temporary [] [], rfl, rfl⟩
  | uncreated => exact ⟨.begun, rfl, .inl rfl⟩

theorem unlink_writes (stored buffer : Text) :
    (Prog.invoke (FileCall.unlink d.inodes.length) : TextProgram Unit).Safe FileNext
      (WriteStage d content) (fun _ d' => WriteFailed d d') (fun _ d' => WriteFailed d d')
      (d.withTemporary stored buffer) := by
  apply Prog.Safe.invoke
  intro r d' hn
  cases hn with
  | unlinked =>
    have he : (d.withTemporary stored buffer).temporaries.erase d.inodes.length = d.temporaries :=
      List.erase_cons_head ..
    rw [he]
    exact ⟨.removed stored buffer, rfl, .inl rfl⟩
  | refused => exact ⟨.left stored buffer, rfl, .inr ⟨rfl, List.mem_cons_self⟩⟩

theorem atomicWriteText_writes (d : Disk CodePoint) (content : Text) :
    Writes d content (atomicWriteText content) d := by
  apply create_writes.bind
  rintro _ _ ⟨rfl, rfl⟩
  apply fillAndReplace_writes.attempt_bind
  intro r d' hr
  cases r with
  | ok => exact hr
  | error e =>
    obtain ⟨stored, buffer, rfl⟩ := hr
    exact (unlink_writes stored buffer).bind fun _ _ h => h

theorem atomicWriteText_keepsTarget (d : Disk CodePoint) (content : Text) :
    KeepsTarget d (atomicWriteText content) d := by
  have hcreate : KeepsTarget d (Prog.invoke FileCall.create : TextProgram Nat) d := .invoke rfl
  apply hcreate.bind (@create_writes d content)
  rintro _ _ ⟨rfl, rfl⟩
  apply fillAndReplace_keepsTarget.attempt_bind fillAndReplace_writes
  intro r d' hr
  cases r with
  | ok => trivial
  | error e =>
    obtain ⟨stored, buffer, rfl⟩ := hr
    have hunlink : KeepsTarget d (Prog.invoke (FileCall.unlink d.inodes.length) : TextProgram Unit)
        (d.withTemporary stored buffer) := .invoke rfl
    exact hunlink.bind (@unlink_writes d content stored buffer) fun _ _ _ => trivial

section Passing

variable {next : Prog.Answers FileVal PyError (Disk CodePoint)}
  (hok : ∀ d c v d', FileNext (E := PyError) d c (.ok v) d' → next d c (.ok v) d')
include hok

/-- The steps after the temporary file has been created, all of which succeed. -/
theorem atomicWriteText_filled (d : Disk CodePoint) (content : Text) :
    ∃ k, atomicWriteText content = .call .create k ∧
      Prog.Steps next (k (.ok d.inodes.length)) (d.withTemporary [] []) (.pure ())
        (d.publish content) := by
  have hfile := d.withTemporary_file
  have hwrite : FileNext (E := PyError) (d.withTemporary ([] : Text) [])
      (.write d.inodes.length content) (.ok ()) (d.withTemporary [] content) := by
    have h := FileNext.written (E := PyError) (r := .ok ()) (hfile [] [])
      (show [] ++ content = [] ++ content from rfl)
    rwa [Disk.put_withTemporary] at h
  have hflush : FileNext (E := PyError) (d.withTemporary ([] : Text) content)
      (.flush d.inodes.length) (.ok ()) (d.withTemporary content []) := by
    have h := FileNext.flushed (E := PyError) (hfile [] content)
    rwa [Disk.put_withTemporary] at h
  have hsync : FileNext (E := PyError) (d.withTemporary content []) (.sync d.inodes.length) (.ok ())
      (d.withTemporary content []) := .synced
  have hclose : FileNext (E := PyError) (d.withTemporary content []) (.close d.inodes.length)
      (.ok ()) (d.withTemporary content []) := by
    have h := FileNext.closed (E := PyError) (hfile content [])
    rwa [List.append_nil, Disk.put_withTemporary] at h
  have hreplace : FileNext (E := PyError) (d.withTemporary content []) (.replace d.inodes.length)
      (.ok ()) (d.publish content) := by
    have h := @FileNext.replaced _ PyError (d.withTemporary content []) d.inodes.length
    have he : (d.withTemporary content []).temporaries.erase d.inodes.length = d.temporaries :=
      List.erase_cons_head ..
    rwa [he] at h
  exact ⟨_, rfl, .call (hok _ _ _ _ hwrite) (.call (hok _ _ _ _ hflush)
    (.call (hok _ _ _ _ hsync) (.call (hok _ _ _ _ hclose)
      (.call (hok _ _ _ _ hreplace) .refl))))⟩

theorem atomicWriteText_passes (d : Disk CodePoint) (content : Text) :
    Prog.Steps next (atomicWriteText content) d (.pure ()) (d.publish content) := by
  obtain ⟨k, hk, hs⟩ := atomicWriteText_filled hok d content
  rw [hk]
  exact .call (hok _ _ _ _ .created) hs

end Passing

end GoalRouter
