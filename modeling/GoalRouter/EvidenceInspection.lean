import GoalRouter.Domain
import GoalRouter.GitEvidence
import GoalRouter.Library.Ownership
import GoalRouter.Locking

namespace GoalRouter
open Library
set_option autoImplicit true

structure CommandResult where
  returncode : Int
  stdout : Text
  stderr : Text

namespace LocalRepositoryInspector

structure PinnedPath where
  path : PurePath
  descriptor : Option Nat
  fingerprint : Option FileFingerprint

/-- An opened directory, by the descriptors as the operating system numbers them. -/
structure DirectoryGuard where
  parentDescriptor : Nat
  name : Text
  descriptor : Nat
  fingerprint : FileFingerprint

structure OpenedWorktreeEntry where
  kind : OpenedKind
  mode : Option EntryMode
  descriptor : Option Nat
  fingerprint : Option FileFingerprint
  symlinkContent : Option Bytes
  leafParentDescriptor : Nat
  leafName : Text
  directoryGuards : List DirectoryGuard
  ownedDescriptors : List Nat

structure BlobHashRequest where
  descriptor : Nat
  size : Nat

structure FilesystemEvidence where
  instructionFiles : List InstructionFile
  languageCounts : List (Text × Int)
  dockerFiles : List PurePath

/-- What `_run_filesystem_operation` runs in a thread. -/
inductive FilesystemOperation where
  | resolveDirectory
  | discoverRepositoryCandidate
  | readFilesystemEvidence
  | resolveGitDiscovery
  | pinRequiredDirectory
  | pinOptionalRegularFile
  | validatePinnedPath
  | openWorktreeEntry
  | validateOpenedWorktreeEntry
  deriving DecidableEq

/-- How the wait for a thread went: every interruption delivers a new request. -/
structure ThreadWait where
  observed : Nat
  interruptions : List Interruption
  increasing : List.IsChain (· < ·) (observed :: interruptions.map Interruption.cancelling)

inductive Call where
  | openPath (path : PurePath) (directory : Bool)
  | openAt (name : Text) (directoryDescriptor : Nat) (directory : Bool)
  | duplicate (descriptor : Nat)
  | close (descriptor : Nat)
  | fstat (descriptor : Nat)
  | stat (path : PurePath)
  | statAt (name : Text) (directoryDescriptor : Nat)
  | readlink (name : Text) (directoryDescriptor : Nat)
  | readText (descriptor : Nat)
  | resolve (path : PurePath)
  | isDirectory (path : PurePath)
  | isFile (path : PurePath)
  /-- What the walk of a directory counts. -/
  | languageCounts (root : PurePath)
  /-- The end of a thread, which is waited for. -/
  | settled (operation : FilesystemOperation) (returned : Bool)
  /-- Whether a cancellation comes from the timeout it passes. -/
  | expired
  | runReadOnly (argv : List Text) (cwd : PurePath)
  /-- The commands of a task group, each captured. -/
  | captureGitCommands (argvs : List (List Text)) (cwd : PurePath)
  | hashDescriptors (requests : List BlobHashRequest) (algorithm : HashAlgorithm)

def Val : Call → Type
  | .openPath .. | .openAt .. | .duplicate _ => Nat
  | .close _ => Unit
  | .fstat _ | .stat _ | .statAt .. => FileFingerprint
  | .readlink .. => Bytes
  | .readText _ => Text
  | .resolve _ => PurePath
  | .isDirectory _ | .isFile _ | .expired => Bool
  | .languageCounts _ => List (Text × Int)
  | .settled .. => ThreadWait
  | .runReadOnly .. => CommandResult
  | .captureGitCommands argvs _ => { outcomes : List (Except Raised CommandResult) //
      outcomes.length = argvs.length }
  | .hashDescriptors .. => List Text

abbrev Inspection (α : Type) := Prog Val Raised α

abbrev Body (β α : Type) := TryBlock Val Raised β α

def invoke (c : Call) : Inspection (Val c) := Prog.invoke c

def raised (e : PyError) : Raised := ⟨e, false, []⟩

def raisedOSError (message : String) : Raised := ⟨osError message, true, []⟩

def fail (message : Text) : Inspection α := .throw (raised ⟨.repositoryError, message⟩)

def ofExcept (x : Except PyError α) : Inspection α := .ofExcept (x.mapError raised)

/-- `try: ... except ... as error:` -/
def catching (isCaught : Raised → Bool) (p : Inspection α) (handler : Raised → Inspection α) :
    Inspection α :=
  p.attempt >>= fun
    | .ok a => .pure a
    | .error e => if isCaught e then handler e else .throw e

def isFileNotFound (e : Raised) : Bool := e.error.kind = .other (text "FileNotFoundError")

def isTimeout (e : Raised) : Bool := e.error.kind = .other (text "TimeoutError")

def isUnicodeError (e : Raised) : Bool :=
  e.error.kind = .other (text "UnicodeDecodeError") || e.error.kind = .other (text "UnicodeError")

/-- `_run_filesystem_operation` -/
def runFilesystemOperation (operation : FilesystemOperation) (p : Inspection α) : Inspection α :=
  p.attempt >>= fun result => do
    let wait ← invoke (.settled operation result.isOk)
    let inspection := text "filesystem inspection"
    match result, waitLoop wait.observed wait.interruptions with
    | .ok a, [] => .pure a
    | .ok _, c :: cs => .throw (prepareCancellation c cs inspection)
    | .error e, [] => .throw e
    | .error _, c :: cs =>
      .throw ((prepareCancellation c cs inspection).addNote
        (text "Filesystem inspection failed after cancellation was requested"))

/-- `async with asyncio.timeout(...)` -/
def withTimeout (p : Inspection α) : Inspection α :=
  catching (fun e => e.error.kind = .cancelledError) p fun e => do
    let expired : Bool ← invoke .expired
    if expired then .throw ⟨⟨.other (text "TimeoutError"), []⟩, true, []⟩ else .throw e

/-- The errors of closing are swallowed, the first one is returned. -/
def closeEach (firstError : Option Raised) : List Nat → Inspection (Option Raised)
  | [] => .pure firstError
  | descriptor :: descriptors =>
    (invoke (.close descriptor)).attempt >>= fun
      | .ok _ => closeEach firstError descriptors
      | .error e =>
        if e.isOSError then closeEach (firstError.or (some e)) descriptors else .throw e

/-- `_close_descriptors`, which pops the list from its end. -/
def closeDescriptors (descriptors : List Nat) : Inspection (Option Raised) :=
  closeEach none descriptors.reverse

/-- `try: ... except BaseException: _close_descriptor(descriptor); raise` -/
def closingOnError (descriptor : Nat) (p : Inspection α) : Inspection α :=
  p.attempt >>= fun
    | .ok a => .pure a
    | .error e => do
      invoke (.close descriptor)
      .throw e

def pinRequiredDirectory (path : PurePath) : Inspection PinnedPath := do
  let descriptor : Nat ← invoke (.openPath path true)
  closingOnError descriptor do
    let fingerprint : FileFingerprint ← invoke (.fstat descriptor)
    let current : FileFingerprint ← invoke (.stat path)
    if fingerprint ≠ current ∨ modeType fingerprint.mode ≠ .directory then
      .throw (raisedOSError "repository directory changed")
    else return ⟨path, some descriptor, some fingerprint⟩

/-- `os.open`, `none` where there is no such file. -/
def openIfPresent (c : Call) : Inspection (Option (Val c)) :=
  catching isFileNotFound (some <$> invoke c) fun _ => .pure none

def pinOptionalRegularFile (path : PurePath) : Inspection PinnedPath := do
  match (← openIfPresent (.openPath path false) : Option Nat) with
  | none => return ⟨path, none, none⟩
  | some descriptor =>
    closingOnError descriptor do
      let fingerprint : FileFingerprint ← invoke (.fstat descriptor)
      let current : FileFingerprint ← invoke (.stat path)
      if fingerprint ≠ current ∨ modeType fingerprint.mode ≠ .regular then
        .throw (raisedOSError "repository index is not a stable regular file")
      else return ⟨path, some descriptor, some fingerprint⟩

def validatePinnedPath (pin : PinnedPath) : Inspection Unit := do
  match pin.descriptor with
  | none =>
    match (← openIfPresent (.stat pin.path) : Option FileFingerprint) with
    | none => return ()
    | some _ => .throw (raisedOSError "optional repository evidence appeared during inspection")
  | some descriptor =>
    if pin.fingerprint = none then
      .throw (raisedOSError "repository evidence fingerprint missing")
    else
      let current : FileFingerprint ← invoke (.fstat descriptor)
      if some current ≠ pin.fingerprint then
        .throw (raisedOSError "repository evidence descriptor changed")
      else
        let current : FileFingerprint ← invoke (.stat pin.path)
        if some current ≠ pin.fingerprint then
          .throw (raisedOSError "repository evidence path changed")
        else return ()

/-- The first index pinned is the last one closed. -/
def closePinnedPaths (pins : List PinnedPath) : Inspection (Option Raised) :=
  closeDescriptors (pins.filterMap PinnedPath.descriptor)

section Worktree

def statIfPresent (name : Text) (directoryDescriptor : Nat) : Inspection (Option FileFingerprint) :=
  openIfPresent (.statAt name directoryDescriptor)

def openedNonmatchingEntry (parentDescriptor : Nat) (name : Text) (guards : List DirectoryGuard)
    (fingerprint : Option FileFingerprint) (descriptors : List Nat) : OpenedWorktreeEntry where
  kind := .mismatch
  mode := none
  descriptor := none
  fingerprint := fingerprint
  symlinkContent := none
  leafParentDescriptor := parentDescriptor
  leafName := name
  directoryGuards := guards
  ownedDescriptors := descriptors

/-- `_open_worktree_entry` at the last component of the path. -/
def openLeaf (expectedMode : EntryMode) (current : Nat) (guards : List DirectoryGuard)
    (leafName : Text) : Body Nat OpenedWorktreeEntry := do
  match ← TryBlock.perform (statIfPresent leafName current) with
  | none => return openedNonmatchingEntry current leafName guards none (← TryBlock.collected)
  | some before =>
    match modeType before.mode with
    | .directory =>
      return openedNonmatchingEntry current leafName guards (some before) (← TryBlock.collected)
    | .symlink =>
      if expectedMode ≠ .symlink then
        return openedNonmatchingEntry current leafName guards (some before) (← TryBlock.collected)
      else
        let content : Bytes ← TryBlock.perform (invoke (.readlink leafName current))
        let after : FileFingerprint ← TryBlock.perform (invoke (.statAt leafName current))
        if after ≠ before then
          TryBlock.raise
            (raised (repositoryError "Tracked worktree path changed during inspection"))
        else return {
          kind := .matched
          mode := some .symlink
          descriptor := none
          fingerprint := some before
          symlinkContent := some content
          leafParentDescriptor := current
          leafName
          directoryGuards := guards
          ownedDescriptors := ← TryBlock.collected }
    | .regular =>
      if !expectedMode.isRegular then
        return openedNonmatchingEntry current leafName guards (some before) (← TryBlock.collected)
      else
        let leaf : Nat ← TryBlock.collect List.singleton (invoke (.openAt leafName current false))
        let leafFingerprint : FileFingerprint ← TryBlock.perform (invoke (.fstat leaf))
        if leafFingerprint ≠ before then
          TryBlock.raise
            (raised (repositoryError "Tracked worktree path changed during inspection"))
        else return {
          kind := .matched
          mode := some (if leafFingerprint.mode &&& 0o100 ≠ 0 then .executable else .regular)
          descriptor := some leaf
          fingerprint := some leafFingerprint
          symlinkContent := none
          leafParentDescriptor := current
          leafName
          directoryGuards := guards
          ownedDescriptors := ← TryBlock.collected }
    | _ => TryBlock.raise (raised (repositoryError "Unsafe tracked worktree entry type"))

/-- `_open_worktree_entry` from the directory it has reached. -/
def openBelow (expectedMode : EntryMode) (current : Nat) (guards : List DirectoryGuard) :
    List Text → Body Nat OpenedWorktreeEntry
  | [] => TryBlock.raise (raised ⟨.other (text "IndexError"), text "tuple index out of range"⟩)
  | [leafName] => openLeaf expectedMode current guards leafName
  | part :: next :: rest => do
    match ← TryBlock.perform (statIfPresent part current) with
    | none => return openedNonmatchingEntry current part guards none (← TryBlock.collected)
    | some before =>
      let entryType := modeType before.mode
      if entryType = .symlink ∨ ¬(entryType = .directory ∨ entryType = .regular) then
        TryBlock.raise (raised (repositoryError "Unsafe tracked worktree path boundary"))
      else if entryType = .regular then
        return openedNonmatchingEntry current part guards (some before) (← TryBlock.collected)
      else
        let child : Nat ← TryBlock.collect List.singleton (invoke (.openAt part current true))
        let childFingerprint : FileFingerprint ← TryBlock.perform (invoke (.fstat child))
        if childFingerprint ≠ before then
          TryBlock.raise
            (raised (repositoryError "Tracked worktree path changed during inspection"))
        else
          openBelow expectedMode child (guards ++ [⟨current, part, child, childFingerprint⟩])
            (next :: rest)

def openWorktreeEntry (rootDescriptor : Nat) (path : RelativePath) (expectedMode : EntryMode) :
    Inspection OpenedWorktreeEntry := do
  let descriptor : Nat ← invoke (.duplicate rootDescriptor)
  let (outcome, descriptors) ← openBelow expectedMode descriptor [] path.parts [descriptor]
  match outcome with
  | .ok opened => return opened
  | .error e => do
    let _ ← closeDescriptors descriptors
    .throw e

def validateGuard (guard : DirectoryGuard) : Inspection Unit := do
  let current : FileFingerprint ← invoke (.fstat guard.descriptor)
  if current ≠ guard.fingerprint then
    .throw (raisedOSError "tracked directory descriptor changed")
  else
    let current : FileFingerprint ← invoke (.statAt guard.name guard.parentDescriptor)
    if current ≠ guard.fingerprint then
      .throw (raisedOSError "tracked directory entry changed")
    else return ()

/-- The file of an opened entry is still the one that was opened. -/
def validateFile (opened : OpenedWorktreeEntry) : Inspection Unit := do
  match opened.descriptor with
  | none => return ()
  | some descriptor =>
    if opened.fingerprint = none then
      .throw (raisedOSError "tracked file fingerprint missing")
    else
      let current : FileFingerprint ← invoke (.fstat descriptor)
      if some current ≠ opened.fingerprint then
        .throw (raisedOSError "tracked file descriptor changed")
      else return ()

def validateOpenedWorktreeEntry (opened : OpenedWorktreeEntry) : Inspection Unit := do
  opened.directoryGuards.forM validateGuard
  validateFile opened
  match ← statIfPresent opened.leafName opened.leafParentDescriptor with
  | none =>
    if opened.fingerprint = none then return ()
    else .throw (raisedOSError "tracked worktree entry disappeared")
  | some currentLeaf =>
    if some currentLeaf ≠ opened.fingerprint then
      .throw (raisedOSError "tracked worktree entry changed")
    else return ()

def validate (opened : OpenedWorktreeEntry) : Inspection Unit :=
  runFilesystemOperation .validateOpenedWorktreeEntry (validateOpenedWorktreeEntry opened)

/-- How an opened entry of a batch compares, as far as no file has to be hashed. -/
def compareOpened (hexdigest : HashAlgorithm → Bytes → Text) (algorithm : HashAlgorithm)
    (state : Finset RelativePath × List (GitIndexEntry × OpenedWorktreeEntry))
    (pair : GitIndexEntry × OpenedWorktreeEntry) :
    Inspection (Finset RelativePath × List (GitIndexEntry × OpenedWorktreeEntry)) := do
  let (dirty, regularEntries) := state
  let (entry, opened) := pair
  if opened.kind ≠ .matched ∨ opened.mode ≠ some entry.mode then
    validate opened
    return (insert entry.path dirty, regularEntries)
  else
    match opened.symlinkContent with
    | some content =>
      let dirty :=
        if hashGitBlob hexdigest algorithm content ≠ entry.objectId then insert entry.path dirty
        else dirty
      validate opened
      return (dirty, regularEntries)
    | none =>
      if opened.descriptor = none ∨ opened.fingerprint = none then
        fail (text "Tracked worktree descriptor is unavailable")
      else return (dirty, regularEntries ++ [(entry, opened)])

/-- The request for the file of an opened entry. -/
def OpenedWorktreeEntry.hashRequest? (opened : OpenedWorktreeEntry) : Option BlobHashRequest :=
  match opened.descriptor, opened.fingerprint with
  | some descriptor, some fingerprint => some ⟨descriptor, fingerprint.size⟩
  | _, _ => none

def compareDigest (dirty : Finset RelativePath)
    (hashed : (GitIndexEntry × OpenedWorktreeEntry) × Text) : Inspection (Finset RelativePath) := do
  let ((entry, opened), objectId) := hashed
  validate opened
  return if objectId ≠ entry.objectId then insert entry.path dirty else dirty

/-- What `_compare_worktree_batch` does with the entries it has opened. -/
def compareBatch (hexdigest : HashAlgorithm → Bytes → Text) (algorithm : HashAlgorithm)
    (openedEntries : List (GitIndexEntry × OpenedWorktreeEntry)) :
    Inspection (Finset RelativePath) := do
  let (dirty, regularEntries) ←
    openedEntries.foldlM (compareOpened hexdigest algorithm) (∅, [])
  if regularEntries.isEmpty then return dirty
  else
    let digests : List Text ← invoke (.hashDescriptors
      (regularEntries.filterMap fun pair => pair.2.hashRequest?) algorithm)
    if digests.length ≠ regularEntries.length then
      fail (text "Tracked worktree hashing returned wrong batch size")
    else (regularEntries.zip digests).foldlM compareDigest dirty

/-- The entries that were opened are closed, the last one first. -/
def closeOpened (cleanupError : Option Raised) :
    List (GitIndexEntry × OpenedWorktreeEntry) → Inspection (Option Raised)
  | [] => .pure cleanupError
  | (_, opened) :: openedEntries => do
    let currentError ← closeDescriptors opened.ownedDescriptors
    closeOpened (cleanupError.or currentError) openedEntries

/-- What a `finally` block makes of the outcome and of the first error of closing. -/
def afterCleanup (message : Text) : Except Raised α → Option Raised → Inspection α
  | .ok a, none => .pure a
  | .ok _, some _ => fail message
  | .error e, none => .throw e
  | .error e, some cleanupError =>
    .throw (e.addNote (message ++ text ": " ++ cleanupError.message))

def openEntries (rootDescriptor : Nat) :
    List GitIndexEntry → Body (GitIndexEntry × OpenedWorktreeEntry) Unit
  | [] => return ()
  | entry :: entries => do
    let _ ← TryBlock.collect (fun opened => [(entry, opened)])
      (runFilesystemOperation .openWorktreeEntry
        (openWorktreeEntry rootDescriptor entry.path entry.mode))
    openEntries rootDescriptor entries

def compareWorktreeBatch (hexdigest : HashAlgorithm → Bytes → Text) (rootDescriptor : Nat)
    (entries : List GitIndexEntry) (algorithm : HashAlgorithm) :
    Inspection (Finset RelativePath) := do
  let (outcome, openedEntries) ← (do
    openEntries rootDescriptor entries
    let openedEntries ← TryBlock.collected
    TryBlock.perform (compareBatch hexdigest algorithm openedEntries)) []
  let cleanupError ← closeOpened none openedEntries.reverse
  afterCleanup (text "Tracked worktree descriptor cleanup failed") outcome cleanupError

def collectDirtyPaths (hexdigest : HashAlgorithm → Bytes → Text) (rootDescriptor : Nat)
    (indexEntries : List GitIndexEntry) (headEntries : List GitTreeEntry)
    (untrackedPaths : List RelativePath) : Inspection (List RelativePath) := do
  let objectLengths := (indexEntries.map (·.objectId.length)).toFinset ∪
    (headEntries.map (·.objectId.length)).toFinset
  ofExcept (requireConsistentObjectFormat objectLengths)
  let algorithm := if objectLengths = {64} then HashAlgorithm.sha256 else .sha1
  let indexByPath := Dict.groupBy GitIndexEntry.path indexEntries
  let headByPath := Dict.ofList (headEntries.map fun entry => (entry.path, entry))
  let (dirty, worktreeEntries) ← ofExcept
    (((indexByPath.keys.toFinset ∪ headByPath.keys.toFinset).sort).foldlM
      (classifyPath indexByPath headByPath) (untrackedPaths.toFinset, []))
  let dirty ← (slices blobHashBatchMax worktreeEntries).foldlM (fun dirty entries => do
    return dirty ∪ (← compareWorktreeBatch hexdigest rootDescriptor entries algorithm)) dirty
  return dirty.sort

end Worktree

section Instructions

def FileType.name : FileType → Text
  | .regular => text "regular"
  | .directory => text "directory"
  | .symlink => text "symlink"
  | .fifo => text "fifo"
  | .socket => text "socket"
  | .blockDevice => text "block-device"
  | .characterDevice => text "character-device"
  | .unknown => text "unknown"

def unsafeInstructionError (root relative : PurePath) (fileType : FileType) : Inspection α :=
  fail (text "Unsafe repository instruction " ++ (root.join relative).text ++ text " (type=" ++
    FileType.name fileType ++ text ")")

/-- `_path_type` and `_entry_type` -/
def typeOf (p : Inspection FileFingerprint) : Inspection FileType :=
  catching Raised.isOSError (do return modeType (← p).mode) fun _ => .pure .unknown

/-- Open a component of an instruction path. -/
def openComponent (root relative : PurePath) (p : Inspection α)
    (stat : Inspection FileFingerprint) :
    Inspection α :=
  catching Raised.isOSError p fun _ => do unsafeInstructionError root relative (← typeOf stat)

def openDirectories (root relative : PurePath) (current : Nat) : List Text → Body Nat Nat
  | [] => return current
  | part :: parts => do
    let child : Nat ← TryBlock.collect List.singleton
      (openComponent root relative (invoke (.openAt part current true))
        (invoke (.statAt part current)))
    openDirectories root relative child parts

/-- The content of an instruction file, read through a duplicate of its descriptor. -/
def readLeaf (root relative : PurePath) (leaf : Nat) : Body Nat Text := do
  let unsafeFile := text "Unsafe repository instruction " ++ (root.join relative).text ++
    text " (type=regular): "
  let unreadable : Raised → Inspection Nat :=
    fun _ => fail (unsafeFile ++ text "cannot read safely")
  let duplicate ← TryBlock.collect List.singleton
    (catching Raised.isOSError (invoke (.duplicate leaf)) unreadable)
  TryBlock.perform
    (catching Raised.isOSError
      (catching isUnicodeError (invoke (.readText duplicate)) fun _ =>
        fail (unsafeFile ++ text "invalid UTF-8"))
      fun _ => fail (unsafeFile ++ text "cannot read safely"))

/-- The body of the `try` block of `_read_optional_instruction`. -/
def readInstruction (root relative : PurePath) : Body Nat (Option InstructionFile) := do
  let parts := pathParts relative.text
  let name := parts.getLast?.getD []
  let current : Nat ← TryBlock.collect List.singleton
    (openComponent root relative (invoke (.openPath root true)) (invoke (.stat root)))
  let current ← openDirectories root relative current parts.dropLast
  match ← TryBlock.collect Option.toList
    (openComponent root relative (openIfPresent (.openAt name current false))
      (invoke (.statAt name current)) : Inspection (Option Nat)) with
  | none => return none
  | some leaf =>
    let leafType ← TryBlock.perform
      (catching Raised.isOSError
        (do return modeType (← invoke (.fstat leaf) : FileFingerprint).mode)
        fun _ => unsafeInstructionError root relative .unknown)
    if leafType ≠ .regular then
      TryBlock.perform (unsafeInstructionError root relative leafType)
    else
      let content ← readLeaf root relative leaf
      return some ⟨root.join relative, content⟩

def readOptionalInstruction (root relative : PurePath) : Inspection (Option InstructionFile) :=
  if relative.isAbsolute ∨ text ".." ∈ pathParts relative.text then
    fail (text "Unsafe repository instruction path: " ++ relative.text)
  else do
    let (outcome, descriptors) ← readInstruction root relative []
    let cleanupError ← closeDescriptors descriptors
    afterCleanup (text "Repository instruction descriptor cleanup failed for " ++
      (root.join relative).text) outcome cleanupError

/-- The instruction files of every directory from the root down to the target. -/
def instructionPaths (relativeTarget : PurePath) : List PurePath :=
  let agents := PurePath.ofText (text "AGENTS.md")
  [agents, .ofText (text "SKILLS.md")] ++
    (pathParts relativeTarget.text).inits.tail.map fun parts =>
      (PurePath.ofText (joinParts [] parts)).join agents

def dockerNames : List Text :=
  [text "Dockerfile", text "compose.yaml", text "compose.yml", text "docker-compose.yaml",
    text "docker-compose.yml"]

def readFilesystemEvidence (root target : PurePath) : Inspection FilesystemEvidence :=
  match target.relativeTo root with
  | none => .throw
      (raised ⟨.valueError, target.text ++ text " is not in the subpath of " ++ root.text⟩)
  | some relativeTarget => do
    let instructions ← (instructionPaths relativeTarget).mapM (readOptionalInstruction root)
    let dockerFiles ← (dockerNames.map fun name => root.join (.ofText name)).mapM fun path => do
      let isFile : Bool ← invoke (.isFile path)
      return if isFile then some path else none
    let languageCounts : List (Text × Int) ← invoke (.languageCounts root)
    return ⟨instructions.reduceOption, languageCounts, dockerFiles.reduceOption⟩

end Instructions

section Inspect

def resolveDirectory (path : PurePath) : Inspection PurePath := do
  let resolved : PurePath ← invoke (.resolve path)
  let isDirectory : Bool ← invoke (.isDirectory resolved)
  if !isDirectory then .throw ⟨⟨.other (text "NotADirectoryError"), resolved.text⟩, true, []⟩
  else return resolved

/-- A directory and its parents. -/
def withParents (path : PurePath) : List PurePath :=
  (pathParts path.text).inits.reverse.map fun parts =>
    .ofText (joinParts (pathRoot path.text) parts)

def discoverAmong (target : PurePath) : List PurePath → Inspection (PurePath × Option PurePath)
  | [] => return (target, none)
  | candidate :: candidates => do
    let metadata := candidate.join (.ofText (text ".git"))
    match ← catching Raised.isOSError
        (openIfPresent (.stat metadata) : Inspection (Option FileFingerprint)) fun _ =>
          fail (text "Cannot inspect Git metadata boundary " ++ metadata.text) with
    | none => discoverAmong target candidates
    | some fingerprint =>
      let metadataType := modeType fingerprint.mode
      if metadataType = .directory ∨ metadataType = .regular then return (candidate, some metadata)
      else fail (text "Unsafe Git metadata " ++ metadata.text ++ text " (type=" ++
        FileType.name metadataType ++ text ")")

def discoverRepositoryCandidate (target : PurePath) : Inspection (PurePath × Option PurePath) :=
  discoverAmong target (withParents target)

def lineBreaks : List CodePoint :=
  [0x0A, 0x0B, 0x0C, 0x0D, 0x1C, 0x1D, 0x1E, 0x85, 0x2028, 0x2029]

/-- `str.splitlines` after the beginning of a line; a carriage return takes a newline with it. -/
def splitLines (line : Text) (afterReturn : Bool) : Text → List Text
  | [] => if line = [] then [] else [line]
  | c :: rest =>
    if afterReturn && c == 0x0A then splitLines line false rest
    else if c ∈ lineBreaks then line :: splitLines [] (c == 0x0D) rest
    else splitLines (line ++ [c]) false rest

def resolveGitDiscovery (stdout : Text) (candidateRoot target : PurePath) :
    Inspection (PurePath × PurePath) :=
  match splitLines [] false stdout with
  | [rootField, gitField] =>
    if rootField = [] ∨ gitField = [] then
      .throw (raisedOSError "Git discovery returned malformed path evidence")
    else do
      let root : PurePath ← invoke (.resolve (.ofText rootField))
      let gitDirectory : PurePath ← invoke (.resolve (.ofText gitField))
      let isDirectory : Bool ← invoke (.isDirectory root)
      if !isDirectory then .throw ⟨⟨.other (text "NotADirectoryError"), root.text⟩, true, []⟩
      else
        let isDirectory : Bool ← invoke (.isDirectory gitDirectory)
        if !isDirectory then
          .throw ⟨⟨.other (text "NotADirectoryError"), gitDirectory.text⟩, true, []⟩
        else if root ≠ candidateRoot then
          .throw (raisedOSError "Git worktree root does not match the lexical repository boundary")
        else if target.relativeTo root = none then
          .throw ⟨⟨.other (text "OSError"), text "Git root " ++ root.text ++
            text " does not contain project path " ++ target.text⟩, true, []⟩
        else return (root, gitDirectory)
  | _ => .throw (raisedOSError "Git discovery returned malformed path evidence")

def nonGitContext (target : PurePath) (evidence : FilesystemEvidence) : RepositoryContext where
  projectPath := target
  isGitWorktree := false
  branch := none
  dirtyPaths := []
  instructionFiles := evidence.instructionFiles
  languageCounts := evidence.languageCounts
  dockerFiles := evidence.dockerFiles
  commandErrors := [text "git-root", text "git-branch", text "git-dirty-evidence"].map fun label =>
    label ++ text ": exit 128"

def gitSafePrefix : List Text :=
  [text "/usr/bin/git", text "--no-pager", text "--no-optional-locks",
    text "-c", text "core.fsmonitor=false", text "-c", text "core.hooksPath=/dev/null",
    text "-c", text "core.attributesFile=/dev/null", text "-c", text "core.excludesFile=/dev/null",
    text "-c", text "submodule.recurse=false"]

def branchArguments : List Text := [text "branch", text "--show-current"]

def indexArguments : List Text :=
  [text "ls-files", text "--stage", text "-t", text "-z", text "--full-name"]

def treeArguments : List Text :=
  [text "ls-tree", text "-r", text "-z", text "--full-tree", text "HEAD"]

def untrackedArguments : List Text :=
  [text "-c", text "core.untrackedCache=false", text "ls-files", text "--others",
    text "--exclude-standard", text "-z", text "--full-name"]

def requireGitCommand (label : Text) : Except Raised CommandResult → Inspection CommandResult
  | .error _ => fail (text "Git " ++ label ++ text " inspection failed")
  | .ok result =>
    if result.returncode ≠ 0 then
      fail (text "Git " ++ label ++ text " inspection failed (exit " ++ decimal result.returncode ++
        text ")")
    else return result

def newline : CodePoint := 0x0A

def parseBranch (stdout : Text) : Inspection (Option Text) :=
  let branch := if stdout.getLast? = some newline then stdout.dropLast else stdout
  if nul ∈ stdout ∨ stdout.count newline > 1 ∨ (0x0D : CodePoint) ∈ branch then
    fail (text "Git branch inspection returned malformed evidence")
  else return if branch = [] then none else some branch

def resolveHeadTree (outcome : Except Raised CommandResult) (branch : Option Text)
    (pinnedPrefix : List Text) (cwd : PurePath) : Inspection Text :=
  match outcome with
  | .error _ => fail (text "Git HEAD tree inspection failed")
  | .ok result =>
    let failed : Inspection Text :=
      fail (text "Git HEAD tree inspection failed (exit " ++ decimal result.returncode ++ text ")")
    if result.returncode = 0 then return result.stdout
    else
      match branch with
      | none => failed
      | some branch =>
        if result.returncode = 128 ∧ result.stdout = [] then do
          let ref : CommandResult ←
            catching isTimeout
              (catching (fun e => e.error.kind = .repositoryError)
                (withTimeout (invoke (.runReadOnly (pinnedPrefix ++ [text "show-ref",
                  text "--verify", text "--quiet", text "refs/heads/" ++ branch]) cwd)))
                fun _ => fail (text "Git unborn-HEAD inspection failed"))
              fun _ => fail (text "Git unborn-HEAD inspection timed out")
          if ref.returncode = 1 ∧ ref.stdout = [] ∧ ref.stderr = [] then return [] else failed
        else failed

/-- The worktree and the files below the root, which stay pinned throughout. -/
def readPinned (target repositoryRoot : PurePath) (rootPin indexPin : PinnedPath)
    (dirtyPaths : Inspection (List RelativePath)) :
    Inspection (List RelativePath × FilesystemEvidence) :=
  catching Raised.isOSError
    (catching isTimeout
      (withTimeout do
        let dirtyPaths ← dirtyPaths
        let evidence ← runFilesystemOperation .readFilesystemEvidence
          (readFilesystemEvidence repositoryRoot target)
        runFilesystemOperation .validatePinnedPath (validatePinnedPath rootPin)
        runFilesystemOperation .validatePinnedPath (validatePinnedPath indexPin)
        return (dirtyPaths, evidence))
      fun _ => fail (text "Repository filesystem inspection timed out for " ++ target.text))
    fun _ => fail (text "Repository evidence changed during inspection for " ++ target.text)

/-- What `inspect` gathers while the root and the index are pinned. -/
def gatherEvidence (hexdigest : HashAlgorithm → Bytes → Text) (target repositoryRoot : PurePath)
    (pinnedPrefix : List Text) (rootPin indexPin : PinnedPath) : Inspection RepositoryContext := do
  let captured : List (Except Raised CommandResult) ←
    catching isTimeout
      (withTimeout (Subtype.val <$> invoke (.captureGitCommands
        ([branchArguments, indexArguments, treeArguments, untrackedArguments].map
          (pinnedPrefix ++ ·)) target)))
      fun _ => fail (text "Repository Git inspection timed out for " ++ target.text)
  match captured with
  | [branchOutcome, indexOutcome, headOutcome, untrackedOutcome] => do
    let branchResult ← requireGitCommand (text "branch") branchOutcome
    let indexResult ← requireGitCommand (text "index") indexOutcome
    let untrackedResult ← requireGitCommand (text "untracked") untrackedOutcome
    let branch ← parseBranch branchResult.stdout
    let headStdout ← resolveHeadTree headOutcome branch pinnedPrefix target
    let indexEntries ← ofExcept (parseIndexEntries indexResult.stdout)
    let headEntries ← ofExcept (parseTreeEntries headStdout)
    let untrackedPaths ← ofExcept (parseNulPaths untrackedResult.stdout (text "untracked"))
    match rootPin.descriptor with
    | none => fail (text "Repository root descriptor is unavailable")
    | some rootDescriptor =>
      let (dirtyPaths, evidence) ← readPinned target repositoryRoot rootPin indexPin
        (collectDirtyPaths hexdigest rootDescriptor indexEntries headEntries untrackedPaths)
      return {
        projectPath := target
        isGitWorktree := true
        branch
        dirtyPaths := dirtyPaths.map fun path => .ofText path.asPosix
        instructionFiles := evidence.instructionFiles
        languageCounts := evidence.languageCounts
        dockerFiles := evidence.dockerFiles
        commandErrors := [] }
  | _ => .throw (raised ⟨.valueError, []⟩)

/-- The pins of the root and of the index, in this order. -/
def pinEvidence (target repositoryRoot gitDirectory : PurePath) :
    Inspection (PinnedPath × PinnedPath) :=
  catching Raised.isOSError
    (withTimeout do
      let rootPin ← runFilesystemOperation .pinRequiredDirectory
        (pinRequiredDirectory repositoryRoot)
      let indexPin ← runFilesystemOperation .pinOptionalRegularFile
        (pinOptionalRegularFile (gitDirectory.join (.ofText (text "index"))))
      return (rootPin, indexPin))
    fun _ => fail (text "Cannot pin repository evidence for " ++ target.text)

/-- What `inspect` does once it knows the repository. -/
def inspectPinned (hexdigest : HashAlgorithm → Bytes → Text)
    (target repositoryRoot gitDirectory : PurePath) (pinnedPrefix : List Text) :
    Inspection RepositoryContext := do
  let (rootPin, indexPin) ← pinEvidence target repositoryRoot gitDirectory
  (gatherEvidence hexdigest target repositoryRoot pinnedPrefix rootPin indexPin).attempt >>=
    fun outcome => do
      let cleanupError ← closePinnedPaths [indexPin, rootPin]
      afterCleanup (text "Repository evidence descriptor cleanup failed") outcome cleanupError

def inspect (hexdigest : HashAlgorithm → Bytes → Text) (projectPath : PurePath) :
    Inspection RepositoryContext :=
  if !projectPath.isAbsolute then
    fail (text "Project path must be absolute: " ++ projectPath.text)
  else do
    let target ←
      catching Raised.isOSError
        (withTimeout (runFilesystemOperation .resolveDirectory (resolveDirectory projectPath)))
        fun e => fail (text "Invalid project path " ++ projectPath.text ++ text ": " ++ e.message)
    let ((candidateRoot, gitMetadata), evidence) ←
      catching isTimeout
        (withTimeout do
          let candidate ← runFilesystemOperation .discoverRepositoryCandidate
            (discoverRepositoryCandidate target)
          let evidence ← runFilesystemOperation .readFilesystemEvidence
            (readFilesystemEvidence candidate.1 target)
          return (candidate, evidence))
        fun _ => fail (text "Repository filesystem inspection timed out for " ++ target.text)
    if gitMetadata = none then return nonGitContext target evidence
    else
      let trustedPrefix :=
        gitSafePrefix ++ [text "-c", text "safe.directory=" ++ candidateRoot.text]
      let discovery : CommandResult ←
        catching isTimeout
          (withTimeout (invoke (.runReadOnly (trustedPrefix ++ [text "rev-parse",
            text "--path-format=absolute", text "--show-toplevel", text "--absolute-git-dir"])
            target)))
          fun _ => fail (text "Repository Git inspection timed out for " ++ target.text)
      if discovery.returncode ≠ 0 then
        fail (text "Git repository discovery failed for " ++ target.text ++ text " (exit " ++
          decimal discovery.returncode ++ text ")")
      else
        let (repositoryRoot, gitDirectory) ←
          catching Raised.isOSError
            (runFilesystemOperation .resolveGitDiscovery
              (resolveGitDiscovery discovery.stdout candidateRoot target))
            fun e => fail (text "Invalid Git metadata for " ++ target.text ++ text ": " ++
              e.message)
        inspectPinned hexdigest target repositoryRoot gitDirectory
          (trustedPrefix ++ [text "--git-dir=" ++ gitDirectory.text,
            text "--work-tree=" ++ repositoryRoot.text])

end Inspect

end LocalRepositoryInspector

end GoalRouter
