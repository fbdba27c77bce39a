import GoalRouter.Errors
import GoalRouter.Library.Grouping
import GoalRouter.Library.RelativePath
import Mathlib.Data.Finset.Sort

namespace GoalRouter
open Library
set_option autoImplicit true

abbrev Bytes := List UInt8

/-- The modes of the entries of an index or a tree. -/
inductive EntryMode where
  | regular
  | executable
  | symlink
  | gitlink
  deriving DecidableEq

def EntryMode.isRegular : EntryMode → Bool
  | .regular | .executable => true
  | _ => false

/-- The tags of `git ls-files -t`: cached, skip-worktree, unmerged. -/
inductive IndexTag where
  | cached
  | skipWorktree
  | unmerged
  deriving DecidableEq

structure GitIndexEntry where
  tag : IndexTag
  mode : EntryMode
  objectId : Text
  stage : Nat
  path : RelativePath
  deriving DecidableEq

structure GitTreeEntry where
  mode : EntryMode
  objectId : Text
  path : RelativePath
  deriving DecidableEq

/-- The parsed HEAD tree, whose paths are distinct. -/
structure GitTree where
  entries : List GitTreeEntry
  nodup : (entries.map GitTreeEntry.path).Nodup

inductive FileType where
  | regular
  | directory
  | symlink
  | fifo
  | socket
  | blockDevice
  | characterDevice
  | unknown
  deriving DecidableEq

def modeType (mode : Nat) : FileType :=
  match mode &&& 0o170000 with
  | 0o100000 => .regular
  | 0o040000 => .directory
  | 0o120000 => .symlink
  | 0o010000 => .fifo
  | 0o140000 => .socket
  | 0o060000 => .blockDevice
  | 0o020000 => .characterDevice
  | _ => .unknown

structure FileFingerprint where
  device : Nat
  inode : Nat
  mode : Nat
  size : Nat
  modifiedNs : Int
  changedNs : Int
  deriving DecidableEq

/-- An entry of the worktree: the content of a file, or the target of a symlink. -/
structure WorktreeNode where
  fingerprint : FileFingerprint
  content : Bytes
  size_eq : modeType fingerprint.mode = .regular → fingerprint.size = content.length

namespace WorktreeNode

def type (node : WorktreeNode) : FileType := modeType node.fingerprint.mode

/-- `S_IXUSR` of the mode. -/
def isExecutable (node : WorktreeNode) : Bool := node.fingerprint.mode &&& 0o100 ≠ 0

end WorktreeNode

/-- An open descriptor, by the place it was opened at: nothing changes while it is open. -/
abbrev Descriptor := List Text

/-- The entries below a root, none where there is no entry. -/
abbrev Worktree := Descriptor → Option WorktreeNode

inductive HashAlgorithm where
  | sha1
  | sha256
  deriving DecidableEq

structure DirectoryGuard where
  parentDescriptor : Descriptor
  name : Text
  descriptor : Descriptor
  fingerprint : FileFingerprint
  deriving DecidableEq

inductive OpenedKind where
  | mismatch
  | matched
  deriving DecidableEq

structure OpenedWorktreeEntry where
  kind : OpenedKind
  mode : Option EntryMode
  descriptor : Option Descriptor
  fingerprint : Option FileFingerprint
  symlinkContent : Option Bytes
  leafParentDescriptor : Descriptor
  leafName : Text
  directoryGuards : List DirectoryGuard
  ownedDescriptors : List Descriptor
  deriving DecidableEq

structure BlobHashRequest where
  descriptor : Descriptor
  size : Nat
  deriving DecidableEq

abbrev BlobHasher := List BlobHashRequest → HashAlgorithm → Except PyError (List Text)

def repositoryError (message : String) : PyError := ⟨.repositoryError, text message⟩

def osError (message : String) : PyError := ⟨.other (text "OSError"), text message⟩

def parseRepositoryPath (rawPath label : Text) : Except PyError RelativePath :=
  if rawPath = [] ∨ pathRoot rawPath ≠ [] ∨
      (pathParts rawPath).any (fun part => part = [] ∨ part = text "." ∨ part = text "..") then
    .error ⟨.repositoryError, text "Git " ++ label ++ text " returned an unsafe path"⟩
  else .ok ⟨pathParts rawPath, fun _ => mem_pathParts⟩

namespace Worktree

variable (w : Worktree)

/-- `os.stat(name, dir_fd=current, follow_symlinks=False)`. -/
def stat (current : Descriptor) (name : Text) : Option WorktreeNode := w (current ++ [name])

def fstat (descriptor : Descriptor) : Except PyError FileFingerprint :=
  match w descriptor with
  | some node => .ok node.fingerprint
  | none => .error (osError "Bad file descriptor")

/-- `os.open` with `O_DIRECTORY`. -/
def openDirectory (current : Descriptor) (name : Text) : Except PyError Descriptor :=
  match w.stat current name with
  | some node =>
    if node.type = .directory then .ok (current ++ [name]) else .error (osError "Not a directory")
  | none => .error (osError "No such file or directory")

/-- `os.open` with `O_NOFOLLOW`. -/
def openFile (current : Descriptor) (name : Text) : Except PyError Descriptor :=
  match w.stat current name with
  | some node =>
    if node.type = .symlink then .error (osError "Too many levels of symbolic links")
    else .ok (current ++ [name])
  | none => .error (osError "No such file or directory")

/-- `os.fsencode(os.readlink(name, dir_fd=current))`. -/
def readlink (current : Descriptor) (name : Text) : Except PyError Bytes :=
  match w.stat current name with
  | some node =>
    if node.type = .symlink then .ok node.content else .error (osError "Invalid argument")
  | none => .error (osError "No such file or directory")

end Worktree

def openedNonmatchingEntry (parentDescriptor : Descriptor) (name : Text)
    (guards : List DirectoryGuard) (descriptors : List Descriptor)
    (fingerprint : Option FileFingerprint) : OpenedWorktreeEntry where
  kind := .mismatch
  mode := none
  descriptor := none
  fingerprint := fingerprint
  symlinkContent := none
  leafParentDescriptor := parentDescriptor
  leafName := name
  directoryGuards := guards
  ownedDescriptors := descriptors

/-- `_open_worktree_entry` at the last component of the path. -/
def openLeaf (w : Worktree) (expectedMode : EntryMode) (current : Descriptor)
    (descriptors : List Descriptor) (guards : List DirectoryGuard) (leafName : Text) :
    Except PyError OpenedWorktreeEntry :=
  match w.stat current leafName with
  | none => .ok (openedNonmatchingEntry current leafName guards descriptors none)
  | some before => do
    let nonmatching :=
      openedNonmatchingEntry current leafName guards descriptors (some before.fingerprint)
    match before.type with
    | .directory => return nonmatching
    | .symlink =>
      if expectedMode ≠ .symlink then return nonmatching
      let content ← w.readlink current leafName
      match w.stat current leafName with
      | none => throw (osError "No such file or directory")
      | some after =>
        if after.fingerprint ≠ before.fingerprint then
          throw (repositoryError "Tracked worktree path changed during inspection")
        return {
          kind := .matched
          mode := some .symlink
          descriptor := none
          fingerprint := some before.fingerprint
          symlinkContent := some content
          leafParentDescriptor := current
          leafName
          directoryGuards := guards
          ownedDescriptors := descriptors }
    | .regular =>
      if !expectedMode.isRegular then return nonmatching
      let leaf ← w.openFile current leafName
      let leafFingerprint ← w.fstat leaf
      if leafFingerprint ≠ before.fingerprint then
        throw (repositoryError "Tracked worktree path changed during inspection")
      return {
        kind := .matched
        mode := some (if leafFingerprint.mode &&& 0o100 ≠ 0 then .executable else .regular)
        descriptor := some leaf
        fingerprint := some leafFingerprint
        symlinkContent := none
        leafParentDescriptor := current
        leafName
        directoryGuards := guards
        ownedDescriptors := descriptors ++ [leaf] }
    | _ => throw (repositoryError "Unsafe tracked worktree entry type")

/-- `_open_worktree_entry` from the directory it has reached. -/
def openBelow (w : Worktree) (expectedMode : EntryMode) (current : Descriptor)
    (descriptors : List Descriptor) (guards : List DirectoryGuard) :
    List Text → Except PyError OpenedWorktreeEntry
  | [] => .error ⟨.other (text "IndexError"), text "tuple index out of range"⟩
  | [leafName] => openLeaf w expectedMode current descriptors guards leafName
  | part :: next :: rest =>
    match w.stat current part with
    | none => .ok (openedNonmatchingEntry current part guards descriptors none)
    | some before => do
      let entryType := before.type
      if entryType = .symlink ∨ ¬(entryType = .directory ∨ entryType = .regular) then
        throw (repositoryError "Unsafe tracked worktree path boundary")
      if entryType = .regular then
        return openedNonmatchingEntry current part guards descriptors (some before.fingerprint)
      let child ← w.openDirectory current part
      let childFingerprint ← w.fstat child
      if childFingerprint ≠ before.fingerprint then
        throw (repositoryError "Tracked worktree path changed during inspection")
      openBelow w expectedMode child (descriptors ++ [child])
        (guards ++ [⟨current, part, child, childFingerprint⟩]) (next :: rest)

def openWorktreeEntry (w : Worktree) (rootDescriptor : Descriptor) (path : RelativePath)
    (expectedMode : EntryMode) : Except PyError OpenedWorktreeEntry :=
  openBelow w expectedMode rootDescriptor [rootDescriptor] [] path.parts

def validateGuard (w : Worktree) (guard : DirectoryGuard) : Except PyError Unit := do
  if (← w.fstat guard.descriptor) ≠ guard.fingerprint then
    throw (osError "tracked directory descriptor changed")
  match w.stat guard.parentDescriptor guard.name with
  | none => throw (osError "No such file or directory")
  | some current =>
    if current.fingerprint ≠ guard.fingerprint then
      throw (osError "tracked directory entry changed")

def validateOpenedWorktreeEntry (w : Worktree) (opened : OpenedWorktreeEntry) :
    Except PyError Unit := do
  opened.directoryGuards.forM (validateGuard w)
  match opened.descriptor with
  | none => pure ()
  | some descriptor =>
    if opened.fingerprint = none then throw (osError "tracked file fingerprint missing")
    if some (← w.fstat descriptor) ≠ opened.fingerprint then
      throw (osError "tracked file descriptor changed")
  match w.stat opened.leafParentDescriptor opened.leafName with
  | none =>
    if opened.fingerprint ≠ none then throw (osError "tracked worktree entry disappeared")
  | some currentLeaf =>
    if some currentLeaf.fingerprint ≠ opened.fingerprint then
      throw (osError "tracked worktree entry changed")

def asciiBytes (t : Text) : Bytes := t.map fun c => c.val.toUInt8

/-- `hexdigest` is what `hashlib` computes with the algorithm. -/
def hashGitBlob (hexdigest : HashAlgorithm → Bytes → Text) (algorithm : HashAlgorithm)
    (content : Bytes) : Text :=
  hexdigest algorithm (asciiBytes (text "blob " ++ decimal content.length ++ [0]) ++ content)

def blobHashBatchMax : Nat := 64

/-- `LocalBlobHasher.hash_descriptors`, whose helper process hashes the requested files. -/
def hashDescriptors (helper : BlobHasher) : BlobHasher := fun requests algorithm =>
  if requests = [] ∨ requests.length > blobHashBatchMax then
    .error (repositoryError "Invalid tracked worktree hashing request")
  else helper requests algorithm

/-- How the opened entries of a batch compare, as far as no file has to be hashed. -/
def compareOpened (w : Worktree) (hexdigest : HashAlgorithm → Bytes → Text)
    (algorithm : HashAlgorithm)
    (state : Finset RelativePath × List (GitIndexEntry × OpenedWorktreeEntry))
    (pair : GitIndexEntry × OpenedWorktreeEntry) :
    Except PyError (Finset RelativePath × List (GitIndexEntry × OpenedWorktreeEntry)) := do
  let (dirty, regularEntries) := state
  let (entry, opened) := pair
  if opened.kind ≠ .matched ∨ opened.mode ≠ some entry.mode then
    validateOpenedWorktreeEntry w opened
    return (insert entry.path dirty, regularEntries)
  match opened.symlinkContent with
  | some content =>
    let dirty :=
      if hashGitBlob hexdigest algorithm content ≠ entry.objectId then insert entry.path dirty
      else dirty
    validateOpenedWorktreeEntry w opened
    return (dirty, regularEntries)
  | none =>
    if opened.descriptor = none ∨ opened.fingerprint = none then
      throw (repositoryError "Tracked worktree descriptor is unavailable")
    return (dirty, regularEntries ++ [(entry, opened)])

/-- The request for the file of an opened entry. -/
def OpenedWorktreeEntry.hashRequest? (opened : OpenedWorktreeEntry) : Option BlobHashRequest :=
  match opened.descriptor, opened.fingerprint with
  | some descriptor, some fingerprint => some ⟨descriptor, fingerprint.size⟩
  | _, _ => none

def compareDigest (w : Worktree) (dirty : Finset RelativePath)
    (hashed : (GitIndexEntry × OpenedWorktreeEntry) × Text) :
    Except PyError (Finset RelativePath) := do
  let ((entry, opened), objectId) := hashed
  validateOpenedWorktreeEntry w opened
  return if objectId ≠ entry.objectId then insert entry.path dirty else dirty

def compareWorktreeBatch (w : Worktree) (hexdigest : HashAlgorithm → Bytes → Text)
    (rootDescriptor : Descriptor) (entries : List GitIndexEntry) (algorithm : HashAlgorithm)
    (hasher : BlobHasher) : Except PyError (Finset RelativePath) := do
  let openedEntries ← entries.mapM fun entry => do
    return (entry, ← openWorktreeEntry w rootDescriptor entry.path entry.mode)
  let (dirty, regularEntries) ← openedEntries.foldlM (compareOpened w hexdigest algorithm) (∅, [])
  if regularEntries = [] then return dirty
  let digests ← hasher (regularEntries.filterMap fun pair => pair.2.hashRequest?) algorithm
  if digests.length ≠ regularEntries.length then
    throw (repositoryError "Tracked worktree hashing returned wrong batch size")
  (regularEntries.zip digests).foldlM (compareDigest w) dirty

def requireConsistentObjectFormat (lengths : Finset Nat) : Except PyError Unit :=
  if lengths.card > 1 then .error (repositoryError "Git returned mixed object identifier formats")
  else .ok ()

/-- What the index and the HEAD tree say of a path: whether it is dirty already, and whether its
entry is to be compared with the worktree. -/
def classifyPath (indexByPath : Dict RelativePath (List GitIndexEntry))
    (headByPath : Dict RelativePath GitTreeEntry)
    (state : Finset RelativePath × List GitIndexEntry) (path : RelativePath) :
    Except PyError (Finset RelativePath × List GitIndexEntry) := do
  let (dirty, worktreeEntries) := state
  let candidates := (indexByPath.get? path).getD []
  let stages := candidates.map (·.stage)
  if stages.length ≠ stages.toFinset.card ∨ (0 ∈ stages ∧ stages.length ≠ 1) then
    throw (repositoryError "Git index returned conflicting stage evidence")
  match candidates with
  | [indexEntry] =>
    if indexEntry.stage ≠ 0 then return (insert path dirty, worktreeEntries)
    let dirty :=
      match headByPath.get? path with
      | none => insert path dirty
      | some headEntry =>
        if headEntry.mode ≠ indexEntry.mode ∨ headEntry.objectId ≠ indexEntry.objectId then
          insert path dirty
        else dirty
    if indexEntry.mode = .gitlink ∨ indexEntry.tag = .skipWorktree then
      return (dirty, worktreeEntries)
    return (dirty, worktreeEntries ++ [indexEntry])
  | _ => return (insert path dirty, worktreeEntries)

/-- `_collect_dirty_paths` with batches of at most `batchMax` entries. -/
def collectDirtyPathsIn (batchMax : Nat) (w : Worktree)
    (hexdigest : HashAlgorithm → Bytes → Text) (rootDescriptor : Descriptor)
    (indexEntries : List GitIndexEntry) (headEntries : GitTree)
    (untrackedPaths : List RelativePath) (hasher : BlobHasher) :
    Except PyError (List RelativePath) := do
  let objectLengths := (indexEntries.map (·.objectId.length)).toFinset ∪
    (headEntries.entries.map (·.objectId.length)).toFinset
  requireConsistentObjectFormat objectLengths
  let algorithm := if objectLengths = {64} then HashAlgorithm.sha256 else .sha1
  let indexByPath := Dict.groupBy GitIndexEntry.path indexEntries
  let headByPath := Dict.ofList (headEntries.entries.map fun entry => (entry.path, entry))
  let (dirty, worktreeEntries) ←
    ((indexByPath.keys.toFinset ∪ headByPath.keys.toFinset).sort).foldlM
      (classifyPath indexByPath headByPath) (untrackedPaths.toFinset, [])
  let dirty ← (slices batchMax worktreeEntries).foldlM (fun dirty entries => do
    return dirty ∪ (← compareWorktreeBatch w hexdigest rootDescriptor entries algorithm hasher))
      dirty
  return dirty.sort

def collectDirtyPaths (w : Worktree) (hexdigest : HashAlgorithm → Bytes → Text)
    (rootDescriptor : Descriptor) (indexEntries : List GitIndexEntry) (headEntries : GitTree)
    (untrackedPaths : List RelativePath) (hasher : BlobHasher) :
    Except PyError (List RelativePath) :=
  collectDirtyPathsIn blobHashBatchMax w hexdigest rootDescriptor indexEntries headEntries
    untrackedPaths hasher

end GoalRouter
