import GoalRouter.Library.Program
import Mathlib.Data.List.Basic

namespace Library
set_option autoImplicit true

/-- A file with what has been written to its stream and not yet been handed to it. -/
structure Inode (β : Type) where
  stored : List β
  buffer : List β

/-- A directory: its files by number, the one under the name that is read, the ones that still
have a temporary name, and the ones whose name could not be removed. -/
structure Disk (β : Type) where
  inodes : List (Inode β)
  target : Option Nat
  temporaries : List Nat
  refused : List Nat

namespace Disk

variable {β : Type}

def empty : Disk β := ⟨[], none, [], []⟩

/-- The contents of a file. -/
def read (d : Disk β) (file : Nat) : List β := ((d.inodes[file]?).map Inode.stored).getD []

def put (d : Disk β) (file : Nat) (stored buffer : List β) : Disk β :=
  { d with inodes := d.inodes.set file ⟨stored, buffer⟩ }

end Disk

/-- The steps of a program that writes a file beside the one that is read. -/
inductive FileCall (β : Type) where
  | create
  | write (file : Nat) (content : List β)
  | flush (file : Nat)
  | sync (file : Nat)
  | close (file : Nat)
  | replace (file : Nat)
  | unlink (file : Nat)

def FileVal {β : Type} : FileCall β → Type
  | .create => Nat
  | _ => Unit

abbrev FileProgram (β E α : Type) := Prog (FileVal (β := β)) E α

/-- How a file system answers. A step that fails may have handed over part of what was written. -/
inductive FileNext {β E : Type} : Prog.Answers (FileVal (β := β)) E (Disk β) where
  | created : FileNext d .create (.ok d.inodes.length)
      { d with inodes := d.inodes ++ [⟨[], []⟩], temporaries := d.inodes.length :: d.temporaries }
  | uncreated : FileNext d .create (.error e) d
  | written (hf : d.inodes[file]? = some ⟨stored, buffer⟩)
    (hb : given ++ kept = buffer ++ content) :
      FileNext d (.write file content) r (d.put file (stored ++ given) kept)
  | flushed (hf : d.inodes[file]? = some ⟨stored, buffer⟩) :
      FileNext d (.flush file) (.ok ()) (d.put file (stored ++ buffer) [])
  | unflushed (hf : d.inodes[file]? = some ⟨stored, buffer⟩) (hb : given ++ kept = buffer) :
      FileNext d (.flush file) (.error e) (d.put file (stored ++ given) kept)
  | synced : FileNext d (.sync file) r d
  | closed (hf : d.inodes[file]? = some ⟨stored, buffer⟩) :
      FileNext d (.close file) (.ok ()) (d.put file (stored ++ buffer) [])
  | unclosed (hf : d.inodes[file]? = some ⟨stored, buffer⟩) (hb : given ++ kept = buffer) :
      FileNext d (.close file) (.error e) (d.put file (stored ++ given) [])
  | replaced : FileNext d (.replace file) (.ok ())
      { d with target := some file, temporaries := d.temporaries.erase file }
  | unreplaced : FileNext d (.replace file) (.error e) d
  | unlinked : FileNext d (.unlink file) (.ok ())
      { d with temporaries := d.temporaries.erase file }
  | refused : FileNext d (.unlink file) (.error e) { d with refused := file :: d.refused }

namespace Disk

variable {β : Type} {d d₀ : Disk β}

/-- The disk with one more file, under a temporary name. -/
def withTemporary (d : Disk β) (stored buffer : List β) : Disk β :=
  { d with
    inodes := d.inodes ++ [⟨stored, buffer⟩]
    temporaries := d.inodes.length :: d.temporaries }

/-- The disk with one more file, in place of the one that is read. -/
def publish (d : Disk β) (content : List β) : Disk β :=
  { d with inodes := d.inodes ++ [⟨content, []⟩], target := some d.inodes.length }

@[simp] theorem withTemporary_file (d : Disk β) (stored buffer : List β) :
    (d.withTemporary stored buffer).inodes[d.inodes.length]? = some ⟨stored, buffer⟩ := by
  rw [withTemporary, List.getElem?_append_right (Nat.le_refl _), Nat.sub_self]
  rfl

@[simp] theorem put_withTemporary (d : Disk β) (stored buffer stored' buffer' : List β) :
    (d.withTemporary stored buffer).put d.inodes.length stored' buffer' =
      d.withTemporary stored' buffer' := by
  rw [put, withTemporary, List.set_append_right _ _ (Nat.le_refl _), Nat.sub_self]
  rfl

end Disk

end Library
