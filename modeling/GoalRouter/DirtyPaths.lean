import GoalRouter.RepositoryEvidence

namespace GoalRouter
open Library
set_option autoImplicit true

/-- What a worktree holds at a path, as far as an index can tell it: nothing it could track, a place
that is not safe to read, a symlink or a regular file. -/
inductive WorktreeState where
  | missing
  | refused
  | symlink (target : Bytes)
  | regular (executable : Bool) (content : Bytes)

def WorktreeNode.state (node : WorktreeNode) : WorktreeState :=
  match node.type with
  | .regular => .regular node.isExecutable node.content
  | .symlink => .symlink node.content
  | .directory => .missing
  | _ => .refused

/-- The state below a directory. A file in place of a directory hides what would be below it. -/
def Worktree.stateAt (w : Worktree) (current : Descriptor) : List Text → WorktreeState
  | [] => .missing
  | [leaf] =>
    match w.stat current leaf with
    | none => .missing
    | some node => node.state
  | part :: next :: rest =>
    match w.stat current part with
    | none => .missing
    | some node =>
      match node.type with
      | .directory => w.stateAt (current ++ [part]) (next :: rest)
      | .regular => .missing
      | _ => .refused

def regularMode (executable : Bool) : EntryMode := if executable then .executable else .regular

/-- The kind, the mode and the blob of the state are those of the entry. -/
def GitIndexEntry.Matches (hexdigest : HashAlgorithm → Bytes → Text) (algorithm : HashAlgorithm)
    (entry : GitIndexEntry) : WorktreeState → Prop
  | .symlink target =>
    entry.mode = .symlink ∧ hashGitBlob hexdigest algorithm target = entry.objectId
  | .regular executable content =>
    entry.mode = regularMode executable ∧ hashGitBlob hexdigest algorithm content = entry.objectId
  | _ => False

def tupleIndexError : PyError := ⟨.other (text "IndexError"), text "tuple index out of range"⟩

def unsafeBoundary : PyError := repositoryError "Unsafe tracked worktree path boundary"

def unsafeEntryType : PyError := repositoryError "Unsafe tracked worktree entry type"

/-- Why an entry cannot be opened. -/
def Worktree.failureAt (w : Worktree) (current : Descriptor) : List Text → Option PyError
  | [] => some tupleIndexError
  | [leaf] =>
    match (w.stat current leaf).map WorktreeNode.state with
    | some .refused => some unsafeEntryType
    | _ => none
  | part :: next :: rest =>
    match (w.stat current part).map WorktreeNode.type with
    | none => none
    | some .directory => w.failureAt (current ++ [part]) (next :: rest)
    | some .regular => none
    | some _ => some unsafeBoundary

/-- What an opened entry tells of the state of the worktree, as long as that does not change. -/
inductive Opens (w : Worktree) (mode : EntryMode) : WorktreeState → OpenedWorktreeEntry → Prop
  | mismatch {state : WorktreeState} {opened : OpenedWorktreeEntry}
      (hv : validateOpenedWorktreeEntry w opened = .ok ()) (hk : opened.kind = .mismatch)
      (hs : ∀ target, state = .symlink target → mode ≠ .symlink)
      (hr : ∀ executable content, state = .regular executable content → mode.isRegular = false) :
      Opens w mode state opened
  | symlink {target : Bytes} {opened : OpenedWorktreeEntry}
      (hv : validateOpenedWorktreeEntry w opened = .ok ()) (hk : opened.kind = .matched)
      (hm : opened.mode = some .symlink) (hc : opened.symlinkContent = some target)
      (he : mode = .symlink) : Opens w mode (.symlink target) opened
  | regular {node : WorktreeNode} {descriptor : Descriptor} {opened : OpenedWorktreeEntry}
      (hv : validateOpenedWorktreeEntry w opened = .ok ()) (hk : opened.kind = .matched)
      (hm : opened.mode = some (regularMode node.isExecutable)) (hc : opened.symlinkContent = none)
      (hd : opened.descriptor = some descriptor) (hf : opened.fingerprint = some node.fingerprint)
      (hw : w descriptor = some node) (ht : node.type = .regular) :
      Opens w mode (.regular node.isExecutable node.content) opened

/-- The result of opening an entry: it fails as the place says, or tells the state of the place. -/
inductive OpenResult (w : Worktree) (mode : EntryMode) (failure : Option PyError)
    (state : WorktreeState) : Except PyError OpenedWorktreeEntry → Prop
  | failed {e : PyError} (h : failure = some e) : OpenResult w mode failure state (.error e)
  | opened {opened : OpenedWorktreeEntry} (h : failure = none) (ho : Opens w mode state opened) :
      OpenResult w mode failure state (.ok opened)

variable {w : Worktree} {mode : EntryMode} {current : Descriptor} {descriptors : List Descriptor}
  {guards : List DirectoryGuard}

theorem Worktree.fstat_of_stat {node : WorktreeNode} {name : Text}
    (h : w.stat current name = some node) : w.fstat (current ++ [name]) = .ok node.fingerprint := by
  rw [Worktree.stat] at h
  rw [Worktree.fstat, h]

theorem validateGuards (hg : ∀ guard ∈ guards, validateGuard w guard = .ok ()) :
    guards.forM (validateGuard w) = .ok () := by
  induction guards with
  | nil => rfl
  | cons guard guards ih =>
    show (do validateGuard w guard; guards.forM (validateGuard w)) = .ok ()
    rw [hg guard List.mem_cons_self]
    exact ih fun g hm => hg g (List.mem_cons_of_mem _ hm)

/-- An opened entry without a descriptor stays valid while its leaf stays as it was. -/
theorem validate_of_stat {opened : OpenedWorktreeEntry}
    (hg : ∀ guard ∈ opened.directoryGuards, validateGuard w guard = .ok ())
    (hd : opened.descriptor = none)
    (hl : (w.stat opened.leafParentDescriptor opened.leafName).map WorktreeNode.fingerprint =
      opened.fingerprint) : validateOpenedWorktreeEntry w opened = .ok () := by
  rw [validateOpenedWorktreeEntry, validateGuards hg, hd]
  cases hs : w.stat opened.leafParentDescriptor opened.leafName with
  | none =>
    have hf : opened.fingerprint = none := by rw [← hl, hs]; rfl
    rw [hf]
    rfl
  | some node =>
    have hf : opened.fingerprint = some node.fingerprint := by rw [← hl, hs]; rfl
    rw [hf]
    exact if_neg fun h => h rfl

theorem validate_of_descriptor {opened : OpenedWorktreeEntry} {node : WorktreeNode}
    {descriptor : Descriptor}
    (hg : ∀ guard ∈ opened.directoryGuards, validateGuard w guard = .ok ())
    (hd : opened.descriptor = some descriptor) (hf : opened.fingerprint = some node.fingerprint)
    (hw : w descriptor = some node)
    (hl : w.stat opened.leafParentDescriptor opened.leafName = some node) :
    validateOpenedWorktreeEntry w opened = .ok () := by
  have hfstat : w.fstat descriptor = .ok node.fingerprint := by rw [Worktree.fstat, hw]
  rw [validateOpenedWorktreeEntry, validateGuards hg, hd, hf, hl]
  simp only [hfstat]
  simp [bind, Except.bind, pure, Except.pure]

theorem validateGuard_child {node : WorktreeNode} {name : Text}
    (h : w.stat current name = some node) :
    validateGuard w ⟨current, name, current ++ [name], node.fingerprint⟩ = .ok () := by
  simp only [validateGuard, Worktree.fstat_of_stat h, h]
  simp [bind, Except.bind, pure, Except.pure]

/-- An entry that is not there as the index has it keeps its place and its fingerprint. -/
theorem opens_nonmatching (mode : EntryMode) (current : Descriptor) (descriptors : List Descriptor)
    (name : Text) (state : WorktreeState)
    (hg : ∀ guard ∈ guards, validateGuard w guard = .ok ())
    (hs : ∀ target, state = .symlink target → mode ≠ .symlink)
    (hr : ∀ executable content, state = .regular executable content → mode.isRegular = false) :
    Opens w mode state (openedNonmatchingEntry current name guards descriptors
      ((w.stat current name).map WorktreeNode.fingerprint)) :=
  .mismatch (validate_of_stat hg rfl rfl) rfl hs hr

theorem openLeaf_symlink (mode : EntryMode) (descriptors : List Descriptor) {leaf : Text}
    {node : WorktreeNode}
    (hg : ∀ guard ∈ guards, validateGuard w guard = .ok ()) (hs : w.stat current leaf = some node)
    (ht : node.type = .symlink) :
    ∃ opened, openLeaf w mode current descriptors guards leaf = .ok opened ∧
      Opens w mode (.symlink node.content) opened := by
  have hread : w.readlink current leaf = .ok node.content := by
    rw [Worktree.readlink, hs]
    exact if_pos ht
  rw [openLeaf, hs]
  dsimp only
  rw [ht]
  dsimp only
  by_cases hm : mode = .symlink
  · rw [if_neg (not_not_intro hm), hread]
    refine ⟨_, if_neg fun h => h rfl, ?_⟩
    refine .symlink (validate_of_stat hg rfl ?_) rfl rfl rfl hm
    rw [hs]
    rfl
  · rw [if_pos hm]
    have h := opens_nonmatching mode current descriptors leaf (.symlink node.content) hg
      (fun _ _ => hm) nofun
    rw [hs] at h
    exact ⟨_, rfl, h⟩

theorem openLeaf_regular (mode : EntryMode) (descriptors : List Descriptor) {leaf : Text}
    {node : WorktreeNode}
    (hg : ∀ guard ∈ guards, validateGuard w guard = .ok ()) (hs : w.stat current leaf = some node)
    (ht : node.type = .regular) :
    ∃ opened, openLeaf w mode current descriptors guards leaf = .ok opened ∧
      Opens w mode (.regular node.isExecutable node.content) opened := by
  have hopen : w.openFile current leaf = .ok (current ++ [leaf]) := by
    rw [Worktree.openFile, hs]
    exact if_neg fun h => FileType.noConfusion (h.symm.trans ht)
  have hfstat := Worktree.fstat_of_stat hs
  rw [openLeaf, hs]
  dsimp only
  rw [ht]
  dsimp only
  cases hm : mode.isRegular with
  | true =>
    rw [hopen]
    simp only [bind, Except.bind, hfstat]
    refine ⟨_, (if_neg Bool.false_ne_true).trans (if_neg fun h => h rfl), ?_⟩
    refine .regular (validate_of_descriptor hg rfl rfl hs hs) rfl ?_ rfl rfl rfl hs ht
    simp only [regularMode, WorktreeNode.isExecutable, decide_eq_true_eq]
  | false =>
    have h := opens_nonmatching mode current descriptors leaf
      (.regular node.isExecutable node.content) hg nofun fun _ _ _ => hm
    rw [hs] at h
    exact ⟨_, rfl, h⟩

theorem openLeaf_spec {leaf : Text} (hg : ∀ guard ∈ guards, validateGuard w guard = .ok ()) :
    OpenResult w mode (w.failureAt current [leaf]) (w.stateAt current [leaf])
      (openLeaf w mode current descriptors guards leaf) := by
  have nonmatching (state : WorktreeState) :=
    opens_nonmatching mode current descriptors leaf state hg
  cases hs : w.stat current leaf with
  | none =>
    rw [Worktree.failureAt, Worktree.stateAt, openLeaf, hs]
    rw [hs] at nonmatching
    exact .opened rfl (nonmatching .missing nofun nofun)
  | some node =>
    rw [hs] at nonmatching
    rw [Worktree.failureAt, Worktree.stateAt, hs]
    dsimp only [Option.map_some, WorktreeNode.state]
    cases ht : node.type with
    | directory =>
      rw [openLeaf, hs]
      dsimp only
      rw [ht]
      exact .opened rfl (nonmatching .missing nofun nofun)
    | symlink =>
      obtain ⟨opened, he, ho⟩ := openLeaf_symlink mode descriptors hg hs ht
      rw [he]
      exact .opened rfl ho
    | regular =>
      obtain ⟨opened, he, ho⟩ := openLeaf_regular mode descriptors hg hs ht
      rw [he]
      exact .opened rfl ho
    | _ =>
      rw [openLeaf, hs]
      dsimp only
      rw [ht]
      exact .failed rfl

theorem openBelow_spec {parts : List Text} (hg : ∀ guard ∈ guards, validateGuard w guard = .ok ()) :
    OpenResult w mode (w.failureAt current parts) (w.stateAt current parts)
      (openBelow w mode current descriptors guards parts) := by
  induction parts generalizing current descriptors guards with
  | nil => exact .failed rfl
  | cons part rest ih =>
    cases rest with
    | nil => exact openLeaf_spec hg
    | cons next rest =>
      have nonmatching (state : WorktreeState) :=
        opens_nonmatching mode current descriptors part state hg
      rw [Worktree.failureAt, Worktree.stateAt, openBelow]
      cases hs : w.stat current part with
      | none =>
        rw [hs] at nonmatching
        exact .opened rfl (nonmatching .missing nofun nofun)
      | some node =>
        rw [hs] at nonmatching
        dsimp only [Option.map_some]
        cases ht : node.type with
        | directory =>
          have hopen : w.openDirectory current part = .ok (current ++ [part]) := by
            rw [Worktree.openDirectory, hs]
            exact if_pos ht
          simp only [bind, Except.bind, hopen, Worktree.fstat_of_stat hs]
          rw [if_neg (by simp), if_neg FileType.noConfusion, if_neg fun h => h rfl]
          apply ih
          intro guard hm
          obtain hm | hm := List.mem_append.1 hm
          · exact hg guard hm
          · rw [List.mem_singleton.1 hm]
            exact validateGuard_child hs
        | regular => exact .opened rfl (nonmatching .missing nofun nofun)
        | _ => exact .failed rfl

/-- The failure and the state of the place of an entry. -/
def GitIndexEntry.failure (entry : GitIndexEntry) (w : Worktree) (root : Descriptor) :
    Option PyError :=
  w.failureAt root entry.path.parts

def GitIndexEntry.state (entry : GitIndexEntry) (w : Worktree) (root : Descriptor) :
    WorktreeState :=
  w.stateAt root entry.path.parts

variable {root : Descriptor}

theorem openWorktreeEntry_spec (w : Worktree) (root : Descriptor) (entry : GitIndexEntry) :
    OpenResult w entry.mode (entry.failure w root) (entry.state w root)
      (openWorktreeEntry w root entry.path entry.mode) :=
  openBelow_spec fun _ hm => absurd hm List.not_mem_nil

/-- The opened entries of a batch, each with what it tells. -/
def AllOpened (w : Worktree) (root : Descriptor) (entries : List GitIndexEntry)
    (pairs : List (GitIndexEntry × OpenedWorktreeEntry)) : Prop :=
  pairs.map Prod.fst = entries ∧ ∀ pair ∈ pairs, Opens w pair.1.mode (pair.1.state w root) pair.2

/-- A batch cannot be opened because of its first entry that cannot. -/
theorem openEntries_spec (w : Worktree) (root : Descriptor) (entries : List GitIndexEntry) :
    (∃ e, entries.findSome? (·.failure w root) = some e ∧
      (entries.mapM fun entry => do
        return (entry, ← openWorktreeEntry w root entry.path entry.mode)) = .error e) ∨
    (entries.findSome? (·.failure w root) = none ∧ ∃ pairs, AllOpened w root entries pairs ∧
      (entries.mapM fun entry => do
        return (entry, ← openWorktreeEntry w root entry.path entry.mode)) = .ok pairs) := by
  induction entries with
  | nil => exact .inr ⟨rfl, [], ⟨rfl, fun _ hm => absurd hm List.not_mem_nil⟩, rfl⟩
  | cons entry entries ih =>
    rw [List.findSome?_cons, List.mapM_cons]
    have ho := openWorktreeEntry_spec w root entry
    generalize openWorktreeEntry w root entry.path entry.mode = result at ho
    cases ho with
    | failed h =>
      rw [h]
      exact .inl ⟨_, rfl, rfl⟩
    | opened h ho =>
      rename_i opened
      rw [h]
      obtain ⟨e, hf, he⟩ | ⟨hf, pairs, ⟨hfst, hall⟩, he⟩ := ih
      · rw [he]
        exact .inl ⟨e, hf, rfl⟩
      · rw [he]
        refine .inr ⟨hf, (entry, opened) :: pairs, ⟨by rw [List.map_cons, hfst], ?_⟩, rfl⟩
        intro pair hm
        obtain rfl | hm := List.mem_cons.1 hm
        · exact ho
        · exact hall pair hm

section Batch

variable {hexdigest : HashAlgorithm → Bytes → Text} {algorithm : HashAlgorithm}

/-- The blob that a request asks for: as many bytes of its file as it says. -/
def BlobHashRequest.blob (w : Worktree) (request : BlobHashRequest) : Bytes :=
  ((w request.descriptor).elim [] WorktreeNode.content).take request.size

/-- An opened entry that differs from the index exactly if the blob of its request does. -/
structure Hashable (w : Worktree) (hexdigest : HashAlgorithm → Bytes → Text)
    (algorithm : HashAlgorithm) (root : Descriptor) (pair : GitIndexEntry × OpenedWorktreeEntry)
    (request : BlobHashRequest) : Prop where
  asks : pair.2.hashRequest? = some request
  valid : validateOpenedWorktreeEntry w pair.2 = .ok ()
  matches_iff : pair.1.Matches hexdigest algorithm (pair.1.state w root) ↔
    hashGitBlob hexdigest algorithm (request.blob w) = pair.1.objectId

/-- The paths of entries that do not match the worktree. -/
def Mismatch (w : Worktree) (hexdigest : HashAlgorithm → Bytes → Text) (algorithm : HashAlgorithm)
    (root : Descriptor) (entries : List GitIndexEntry) (path : RelativePath) : Prop :=
  ∃ entry ∈ entries, entry.path = path ∧
    ¬entry.Matches hexdigest algorithm (entry.state w root)

theorem mismatch_cons {entry : GitIndexEntry} {entries : List GitIndexEntry} {path : RelativePath} :
    Mismatch w hexdigest algorithm root (entry :: entries) path ↔
      (entry.path = path ∧ ¬entry.Matches hexdigest algorithm (entry.state w root)) ∨
        Mismatch w hexdigest algorithm root entries path := by
  rw [Mismatch, List.exists_mem_cons_iff]
  exact Iff.rfl

theorem regularMode_isRegular (executable : Bool) : (regularMode executable).isRegular = true := by
  cases executable with
  | true => rfl
  | false => rfl

/-- One opened entry: it is settled at once, or left for hashing. -/
theorem compareOpened_spec (hexdigest : HashAlgorithm → Bytes → Text) (algorithm : HashAlgorithm)
    {pair : GitIndexEntry × OpenedWorktreeEntry}
    (ho : Opens w pair.1.mode (pair.1.state w root) pair.2) (dirty : Finset RelativePath)
    (regularEntries : List (GitIndexEntry × OpenedWorktreeEntry)) :
    (∃ request, Hashable w hexdigest algorithm root pair request ∧
      compareOpened w hexdigest algorithm (dirty, regularEntries) pair =
        .ok (dirty, regularEntries ++ [pair])) ∨
    ∃ dirty', compareOpened w hexdigest algorithm (dirty, regularEntries) pair =
        .ok (dirty', regularEntries) ∧
      ∀ path, path ∈ dirty' ↔ path ∈ dirty ∨ pair.1.path = path ∧
        ¬pair.1.Matches hexdigest algorithm (pair.1.state w root) := by
  obtain ⟨entry, opened⟩ := pair
  have settle (hm : ¬entry.Matches hexdigest algorithm (entry.state w root)) (path : RelativePath) :
      path ∈ insert entry.path dirty ↔ path ∈ dirty ∨ entry.path = path ∧
        ¬entry.Matches hexdigest algorithm (entry.state w root) := by
    rw [Finset.mem_insert, and_iff_left hm, or_comm, eq_comm]
  have differs (hv : validateOpenedWorktreeEntry w opened = .ok ())
      (hne : opened.kind ≠ .matched ∨ opened.mode ≠ some entry.mode) :
      compareOpened w hexdigest algorithm (dirty, regularEntries) (entry, opened) =
        .ok (insert entry.path dirty, regularEntries) := by
    rw [compareOpened]
    dsimp only
    rw [if_pos hne, hv]
    rfl
  generalize hstate : entry.state w root = state at ho settle
  cases ho with
  | mismatch hv hk hs hr =>
    refine .inr ⟨_, differs hv (.inl fun h => OpenedKind.noConfusion (hk.symm.trans h)), ?_⟩
    apply settle
    cases state with
    | missing => exact id
    | refused => exact id
    | symlink target => exact fun h => hs target rfl h.1
    | regular executable content =>
      intro h
      have hreg := hr executable content rfl
      rw [h.1, regularMode_isRegular] at hreg
      exact Bool.noConfusion hreg
  | symlink hv hk hm hc he =>
    rename_i target
    have heq : ¬(opened.kind ≠ .matched ∨ opened.mode ≠ some entry.mode) := by
      rw [hk, hm, he]
      simp
    refine .inr ⟨if hashGitBlob hexdigest algorithm target ≠ entry.objectId then
      insert entry.path dirty else dirty, ?_, fun path => ?_⟩
    · rw [compareOpened]
      dsimp only
      rw [if_neg heq, hc]
      dsimp only
      rw [hv]
      rfl
    · by_cases hb : hashGitBlob hexdigest algorithm target = entry.objectId
      · rw [if_neg (not_not_intro hb)]
        exact ⟨.inl, fun h => h.resolve_right fun h => h.2 ⟨he, hb⟩⟩
      · rw [if_pos hb]
        exact settle (fun h => hb h.2) path
  | regular hv hk hm hc hd hf hw ht =>
    rename_i node descriptor
    by_cases hmode : entry.mode = regularMode node.isExecutable
    · have heq : ¬(opened.kind ≠ .matched ∨ opened.mode ≠ some entry.mode) := by
        rw [hk, hm, hmode]
        simp
      refine .inl ⟨⟨descriptor, node.fingerprint.size⟩, ⟨?_, hv, ?_⟩, ?_⟩
      · rw [OpenedWorktreeEntry.hashRequest?, hd, hf]
      · dsimp only
        rw [hstate, BlobHashRequest.blob, hw, Option.elim_some, node.size_eq ht, List.take_length]
        exact and_iff_right hmode
      · rw [compareOpened]
        dsimp only
        rw [if_neg heq, hc, hd, hf]
        rfl
    · refine .inr ⟨_, differs hv (.inr ?_), ?_⟩
      · rw [hm]
        exact fun h => hmode (Option.some.inj h).symm
      · exact settle fun h => hmode h.1

theorem compareOpened_all (hexdigest : HashAlgorithm → Bytes → Text) (algorithm : HashAlgorithm)
    {pairs : List (GitIndexEntry × OpenedWorktreeEntry)}
    (ho : ∀ pair ∈ pairs, Opens w pair.1.mode (pair.1.state w root) pair.2)
    (dirty : Finset RelativePath) (regularEntries : List (GitIndexEntry × OpenedWorktreeEntry)) :
    ∃ dirty' more, pairs.foldlM (compareOpened w hexdigest algorithm) (dirty, regularEntries) =
        .ok (dirty', regularEntries ++ more) ∧ more.length ≤ pairs.length ∧
      (∀ pair ∈ more, ∃ request, Hashable w hexdigest algorithm root pair request) ∧
      ∀ path, (path ∈ dirty' ∨ Mismatch w hexdigest algorithm root (more.map Prod.fst) path) ↔
        (path ∈ dirty ∨ Mismatch w hexdigest algorithm root (pairs.map Prod.fst) path) := by
  induction pairs generalizing dirty regularEntries with
  | nil =>
    refine ⟨dirty, [], ?_, Nat.le_refl 0, fun _ hm => absurd hm List.not_mem_nil, fun _ => Iff.rfl⟩
    rw [List.append_nil]
    rfl
  | cons pair pairs ih =>
    have ih := fun dirty regular =>
      ih (fun p hm => ho p (List.mem_cons_of_mem _ hm)) dirty regular
    rw [List.foldlM_cons]
    obtain ⟨request, hh, he⟩ | ⟨dirty₁, he, hd⟩ :=
      compareOpened_spec hexdigest algorithm
        (ho pair List.mem_cons_self) dirty regularEntries
    · rw [he]
      obtain ⟨dirty', more, hf, hlen, hmore, hiff⟩ := ih dirty (regularEntries ++ [pair])
      refine ⟨dirty', pair :: more, ?_, Nat.succ_le_succ hlen, ?_, fun path => ?_⟩
      · rw [← List.append_cons] at hf
        exact hf
      · intro p hm
        obtain rfl | hm := List.mem_cons.1 hm
        · exact ⟨request, hh⟩
        · exact hmore p hm
      · rw [List.map_cons, List.map_cons, mismatch_cons, mismatch_cons, or_left_comm, hiff path,
          or_left_comm]
    · rw [he]
      obtain ⟨dirty', more, hf, hlen, hmore, hiff⟩ := ih dirty₁ regularEntries
      refine ⟨dirty', more, hf, Nat.le_succ_of_le hlen, hmore, fun path => ?_⟩
      rw [hiff path, hd path, List.map_cons, mismatch_cons, or_assoc]

theorem hashRequests_spec {pairs : List (GitIndexEntry × OpenedWorktreeEntry)}
    (h : ∀ pair ∈ pairs, ∃ request, Hashable w hexdigest algorithm root pair request) :
    List.Forall₂ (Hashable w hexdigest algorithm root) pairs
      (pairs.filterMap fun pair => pair.2.hashRequest?) := by
  induction pairs with
  | nil => exact .nil
  | cons pair pairs ih =>
    obtain ⟨request, hh⟩ := h pair List.mem_cons_self
    rw [List.filterMap_cons, hh.asks]
    exact .cons hh (ih fun p hm => h p (List.mem_cons_of_mem _ hm))

theorem compareDigests_spec {pairs : List (GitIndexEntry × OpenedWorktreeEntry)}
    {requests : List BlobHashRequest}
    (h : List.Forall₂ (Hashable w hexdigest algorithm root) pairs requests)
    (dirty : Finset RelativePath) :
    ∃ dirty', (pairs.zip (requests.map fun request =>
        hashGitBlob hexdigest algorithm (request.blob w))).foldlM (compareDigest w) dirty =
          .ok dirty' ∧
      ∀ path, path ∈ dirty' ↔
        path ∈ dirty ∨ Mismatch w hexdigest algorithm root (pairs.map Prod.fst) path := by
  induction h generalizing dirty with
  | nil => exact ⟨dirty, rfl, fun path => (or_iff_left fun ⟨_, hm, _⟩ => nomatch hm).symm⟩
  | @cons pair request _ _ hh _ ih =>
    rw [List.map_cons, List.zip_cons_cons, List.foldlM_cons, compareDigest, hh.valid]
    obtain ⟨dirty', hf, hiff⟩ := ih (if hashGitBlob hexdigest algorithm (request.blob w) ≠
      pair.1.objectId then insert pair.1.path dirty else dirty)
    refine ⟨dirty', hf, fun path => ?_⟩
    rw [hiff path, List.map_cons, mismatch_cons, hh.matches_iff, ← or_assoc]
    apply or_congr_left
    by_cases hb : hashGitBlob hexdigest algorithm (request.blob w) = pair.1.objectId
    · rw [if_neg (not_not_intro hb)]
      exact (or_iff_left fun h => h.2 hb).symm
    · rw [if_pos hb, Finset.mem_insert, and_iff_left hb, or_comm, eq_comm]

/-- What is asked of the hasher: the blob ids of the requested files, for every batch it accepts. -/
def BlobHasher.Hashes (hasher : BlobHasher) (w : Worktree)
    (hexdigest : HashAlgorithm → Bytes → Text) : Prop :=
  ∀ requests algorithm, requests ≠ [] → requests.length ≤ blobHashBatchMax →
    hasher requests algorithm =
      .ok (requests.map fun request => hashGitBlob hexdigest algorithm (request.blob w))

/-- A batch fails with its first entry that cannot be opened, or yields its mismatches. -/
theorem compareWorktreeBatch_spec (root : Descriptor) (algorithm : HashAlgorithm)
    {hasher : BlobHasher} {entries : List GitIndexEntry}
    (hh : hasher.Hashes w hexdigest) (hlen : entries.length ≤ blobHashBatchMax) :
    (∃ e, entries.findSome? (·.failure w root) = some e ∧
      compareWorktreeBatch w hexdigest root entries algorithm hasher = .error e) ∨
    (entries.findSome? (·.failure w root) = none ∧ ∃ dirty,
      compareWorktreeBatch w hexdigest root entries algorithm hasher = .ok dirty ∧
        ∀ path, path ∈ dirty ↔ Mismatch w hexdigest algorithm root entries path) := by
  rw [compareWorktreeBatch]
  obtain ⟨e, hf, he⟩ | ⟨hf, pairs, ⟨hfst, hall⟩, he⟩ :=
    openEntries_spec w root entries
  · rw [he]
    exact .inl ⟨e, hf, rfl⟩
  · rw [he]
    obtain ⟨dirty, more, hfold, hmore, hhash, hiff⟩ :=
      compareOpened_all hexdigest algorithm hall ∅ []
    have hpairs : pairs.length = entries.length := by rw [← hfst, List.length_map]
    have hempty (path : RelativePath) : path ∈ (∅ : Finset RelativePath) ∨
        Mismatch w hexdigest algorithm root (pairs.map Prod.fst) path ↔
          Mismatch w hexdigest algorithm root entries path := by
      rw [hfst]
      exact or_iff_right (Finset.notMem_empty path)
    refine .inr ⟨hf, ?_⟩
    simp only [bind, Except.bind, hfold, List.nil_append]
    by_cases hnil : more = []
    · subst hnil
      refine ⟨dirty, rfl, fun path => ?_⟩
      rw [← hempty path, ← hiff path]
      exact (or_iff_left fun ⟨_, hm, _⟩ => nomatch hm).symm
    · have hreq := hashRequests_spec hhash
      generalize (more.filterMap fun pair => pair.2.hashRequest?) = requests at hreq
      have hsize := hreq.length_eq
      have hne : requests ≠ [] := by
        intro h
        rw [h] at hsize
        exact hnil (List.eq_nil_of_length_eq_zero hsize)
      obtain ⟨dirty', hdig, hiff'⟩ := compareDigests_spec hreq dirty
      rw [if_neg hnil, hh requests algorithm hne (by omega)]
      dsimp only
      rw [if_neg (not_not_intro (by rw [List.length_map, hsize]))]
      refine ⟨dirty', hdig, fun path => ?_⟩
      rw [hiff' path, hiff path, hempty path]

theorem mismatch_append {entries rest : List GitIndexEntry} {path : RelativePath} :
    Mismatch w hexdigest algorithm root (entries ++ rest) path ↔
      Mismatch w hexdigest algorithm root entries path ∨
        Mismatch w hexdigest algorithm root rest path := by
  induction entries with
  | nil => exact (or_iff_right fun ⟨_, hm, _⟩ => nomatch hm).symm
  | cons entry entries ih => rw [List.cons_append, mismatch_cons, mismatch_cons, ih, or_assoc]

/-- Whatever the batches are, the first entry that cannot be opened stops the comparison, and
otherwise the mismatches of all entries are found. -/
theorem compareBatches_spec (root : Descriptor) (algorithm : HashAlgorithm) {hasher : BlobHasher}
    {batches : List (List GitIndexEntry)}
    (hh : hasher.Hashes w hexdigest) (hlen : ∀ batch ∈ batches, batch.length ≤ blobHashBatchMax)
    (dirty : Finset RelativePath) :
    (∃ e, batches.flatten.findSome? (·.failure w root) = some e ∧
      (batches.foldlM (fun dirty entries => do
        return dirty ∪ (← compareWorktreeBatch w hexdigest root entries algorithm hasher)) dirty :
          Except PyError (Finset RelativePath)) = .error e) ∨
    (batches.flatten.findSome? (·.failure w root) = none ∧ ∃ dirty',
      (batches.foldlM (fun dirty entries => do
        return dirty ∪ (← compareWorktreeBatch w hexdigest root entries algorithm hasher)) dirty :
          Except PyError (Finset RelativePath)) = .ok dirty' ∧
        ∀ path, path ∈ dirty' ↔
          path ∈ dirty ∨ Mismatch w hexdigest algorithm root batches.flatten path) := by
  induction batches generalizing dirty with
  | nil => exact .inr ⟨rfl, dirty, rfl, fun _ => (or_iff_left fun ⟨_, hm, _⟩ => nomatch hm).symm⟩
  | cons batch batches ih =>
    rw [List.foldlM_cons, List.flatten_cons, List.findSome?_append]
    obtain ⟨e, hf, he⟩ | ⟨hf, found, he, hiff⟩ := compareWorktreeBatch_spec root
      algorithm hh (hlen batch List.mem_cons_self)
    · rw [he, hf]
      exact .inl ⟨e, rfl, rfl⟩
    · rw [he, hf, Option.none_or]
      obtain ⟨e, hf', he'⟩ | ⟨hf', dirty', he', hiff'⟩ :=
        ih (fun b hm => hlen b (List.mem_cons_of_mem _ hm)) (dirty ∪ found)
      · exact .inl ⟨e, hf', he'⟩
      · refine .inr ⟨hf', dirty', he', fun path => ?_⟩
        rw [hiff' path, Finset.mem_union, hiff path, mismatch_append, or_assoc]

end Batch

/-- The entries of a path, one for each stage it has. -/
def candidates (index : List GitIndexEntry) (path : RelativePath) : List GitIndexEntry :=
  index.filter fun entry => entry.path = path

/-- No path has two entries of one stage, or another one beside that of stage 0. -/
def NoConflicts (index : List GitIndexEntry) : Prop :=
  ∀ path, ((candidates index path).map GitIndexEntry.stage).Nodup ∧
    (0 ∈ (candidates index path).map GitIndexEntry.stage → (candidates index path).length = 1)

/-- The path has a single entry, and that is of stage 0. -/
def SingleEntry (index : List GitIndexEntry) (path : RelativePath) (entry : GitIndexEntry) : Prop :=
  candidates index path = [entry] ∧ entry.stage = 0

/-- An entry whose file is expected in the worktree. -/
def Compared (index : List GitIndexEntry) (entry : GitIndexEntry) : Prop :=
  SingleEntry index entry.path entry ∧ entry.mode ≠ .gitlink ∧ entry.tag ≠ .skipWorktree

def GitTree.Agrees (head : GitTree) (entry : GitIndexEntry) : Prop :=
  ∃ headEntry ∈ head.entries, headEntry.path = entry.path ∧ headEntry.mode = entry.mode ∧
    headEntry.objectId = entry.objectId

def comparedItem? (index : List GitIndexEntry) (path : RelativePath) : Option GitIndexEntry :=
  match candidates index path with
  | [entry] =>
    if entry.stage = 0 ∧ entry.mode ≠ .gitlink ∧ entry.tag ≠ .skipWorktree then some entry else none
  | _ => none

/-- What the index and the HEAD tree alone tell of a path. -/
def IndexDirty (index : List GitIndexEntry) (head : GitTree) (path : RelativePath) : Prop :=
  (¬∃ entry, SingleEntry index path entry) ∨
    ∃ entry, SingleEntry index path entry ∧ ¬head.Agrees entry

variable {index : List GitIndexEntry} {head : GitTree}

theorem path_of_singleEntry {path : RelativePath} {entry : GitIndexEntry}
    (h : SingleEntry index path entry) :
    entry.path = path := by
  have hm : entry ∈ candidates index path := by rw [h.1]; exact List.mem_cons_self
  exact of_decide_eq_true (List.mem_filter.1 hm).2

theorem comparedItem_eq_some {path : RelativePath} {entry : GitIndexEntry} :
    comparedItem? index path = some entry ↔ Compared index entry ∧ entry.path = path := by
  rw [comparedItem?]
  constructor
  · intro h
    split at h
    · rename_i staged hc
      split at h
      · rename_i hs
        cases h
        have hst : SingleEntry index path entry := ⟨hc, hs.1⟩
        have hp := path_of_singleEntry hst
        exact ⟨⟨hp ▸ hst, hs.2⟩, hp⟩
      · exact nomatch h
    · exact nomatch h
  · rintro ⟨⟨hst, hm⟩, rfl⟩
    rw [hst.1]
    exact if_pos ⟨hst.2, hm⟩

theorem headItem_eq (head : GitTree) (path : RelativePath) (headEntry : GitTreeEntry) :
    (Dict.ofList (head.entries.map fun entry => (entry.path, entry))).get? path = some headEntry ↔
      headEntry ∈ head.entries ∧ headEntry.path = path := by
  have hnodup : ((head.entries.map fun entry => (entry.path, entry)).map Prod.fst).Nodup := by
    rw [List.map_map]
    exact head.nodup
  rw [Dict.get?_ofList_of_nodup hnodup, lookup_eq_some_of_nodup hnodup, List.mem_map]
  constructor
  · rintro ⟨entry, hm, he⟩
    obtain ⟨rfl, rfl⟩ := Prod.mk.inj he
    exact ⟨hm, rfl⟩
  · rintro ⟨hm, rfl⟩
    exact ⟨headEntry, hm, rfl⟩

theorem headEntry_agrees_iff {path : RelativePath} {entry : GitIndexEntry} (hp : entry.path = path)
    {headEntry : GitTreeEntry} (h : (Dict.ofList (head.entries.map fun entry =>
      (entry.path, entry))).get? path = some headEntry) :
    head.Agrees entry ↔ headEntry.mode = entry.mode ∧ headEntry.objectId = entry.objectId := by
  constructor
  · rintro ⟨other, hm, hpath, hagree⟩
    have hother := (headItem_eq head path other).2 ⟨hm, hpath.trans hp⟩
    cases h.symm.trans hother
    exact hagree
  · intro hagree
    obtain ⟨hm, hpath⟩ := (headItem_eq head path headEntry).1 h
    exact ⟨headEntry, hm, hpath.trans hp.symm, hagree⟩

theorem indexDirty_of_singleEntry {path : RelativePath} {entry : GitIndexEntry}
    (h : SingleEntry index path entry) : IndexDirty index head path ↔ ¬head.Agrees entry := by
  constructor
  · rintro (hnone | ⟨other, hother, ha⟩)
    · exact absurd ⟨entry, h⟩ hnone
    · cases hother.1.symm.trans h.1
      exact ha
  · exact fun ha => .inr ⟨entry, h, ha⟩

theorem mem_comparedWithHead {path p : RelativePath} {entry : GitIndexEntry}
    {dirty : Finset RelativePath} (h : SingleEntry index path entry) :
    (p ∈ match (Dict.ofList (head.entries.map fun entry => (entry.path, entry))).get? path with
      | none => insert path dirty
      | some headEntry =>
        if headEntry.mode ≠ entry.mode ∨ headEntry.objectId ≠ entry.objectId then insert path dirty
        else dirty) ↔ p ∈ dirty ∨ p = path ∧ IndexDirty index head path := by
  rw [indexDirty_of_singleEntry h]
  have insertion (hd : ¬head.Agrees entry) :
      p ∈ insert path dirty ↔ p ∈ dirty ∨ p = path ∧ ¬head.Agrees entry := by
    rw [Finset.mem_insert, and_iff_left hd, or_comm]
  have hp := path_of_singleEntry h
  split
  · rename_i hnone
    apply insertion
    rintro ⟨headEntry, hm, hpath, -⟩
    have := (headItem_eq head path headEntry).2 ⟨hm, hpath.trans hp⟩
    exact nomatch hnone.symm.trans this
  · rename_i headEntry hsome
    have hiff := headEntry_agrees_iff hp hsome
    split
    · rename_i hne
      apply insertion
      rw [hiff]
      exact not_and_or.2 hne
    · rename_i hne
      have ha := hiff.2 (not_or.1 hne |>.imp of_not_not of_not_not)
      exact (or_iff_left fun hd => hd.2 ha).symm

/-- One path: it is added if the index or the HEAD tree tells so, and its entry is kept if it is to
be compared. -/
theorem classifyPath_spec (head : GitTree) (hn : NoConflicts index) (dirty : Finset RelativePath)
    (worktreeEntries : List GitIndexEntry) (path : RelativePath) :
    ∃ dirty', classifyPath (Dict.groupBy GitIndexEntry.path index)
        (Dict.ofList (head.entries.map fun entry => (entry.path, entry)))
        (dirty, worktreeEntries) path =
          .ok (dirty', worktreeEntries ++ (comparedItem? index path).toList) ∧
      ∀ p, p ∈ dirty' ↔ p ∈ dirty ∨ p = path ∧ IndexDirty index head path := by
  have hc : ((Dict.groupBy GitIndexEntry.path index).get? path).getD [] = candidates index path :=
    Dict.get?_groupBy GitIndexEntry.path index path
  obtain ⟨hnodup, hzero⟩ := hn path
  have hok : ¬(((candidates index path).map GitIndexEntry.stage).length ≠
      ((candidates index path).map GitIndexEntry.stage).toFinset.card ∨
        (0 ∈ (candidates index path).map GitIndexEntry.stage ∧
          ((candidates index path).map GitIndexEntry.stage).length ≠ 1)) := by
    rw [List.toFinset_card_of_nodup hnodup, List.length_map]
    rintro (h | ⟨hm, h⟩)
    · exact h rfl
    · exact h (hzero hm)
  have insertion (hd : IndexDirty index head path) (p : RelativePath) :
      p ∈ insert path dirty ↔ p ∈ dirty ∨ p = path ∧ IndexDirty index head path := by
    rw [Finset.mem_insert, and_iff_left hd, or_comm]
  rw [classifyPath]
  dsimp only
  rw [hc, if_neg hok, comparedItem?]
  cases hcand : candidates index path with
  | nil =>
    refine ⟨_, by rw [Option.toList_none, List.append_nil]; rfl, insertion (.inl ?_)⟩
    rintro ⟨entry, he, -⟩
    exact List.cons_ne_nil _ _ (he.symm.trans hcand)
  | cons entry rest =>
    cases rest with
    | cons other rest =>
      refine ⟨_, by rw [Option.toList_none, List.append_nil]; rfl, insertion (.inl ?_)⟩
      rintro ⟨single, he, -⟩
      cases he.symm.trans hcand
    | nil =>
      dsimp only
      by_cases hs : entry.stage = 0
      · have hsingle : SingleEntry index path entry := ⟨hcand, hs⟩
        rw [if_neg (not_not_intro hs)]
        by_cases hskip : entry.mode = .gitlink ∨ entry.tag = .skipWorktree
        · rw [if_pos hskip, if_neg fun h => hskip.elim h.2.1 h.2.2]
          refine ⟨_, by rw [Option.toList_none, List.append_nil]; rfl, fun p => ?_⟩
          exact mem_comparedWithHead hsingle
        · rw [if_neg hskip, if_pos ⟨hs, not_or.1 hskip⟩]
          exact ⟨_, rfl, fun p => mem_comparedWithHead hsingle⟩
      · rw [if_pos hs, if_neg fun h => hs h.1]
        refine ⟨_, by rw [Option.toList_none, List.append_nil]; rfl, insertion (.inl ?_)⟩
        rintro ⟨single, he, hstage⟩
        cases he.symm.trans hcand
        exact hs hstage

theorem classifyPaths_spec (head : GitTree) (hn : NoConflicts index) (paths : List RelativePath)
    (dirty : Finset RelativePath) (worktreeEntries : List GitIndexEntry) :
    ∃ dirty', paths.foldlM (classifyPath (Dict.groupBy GitIndexEntry.path index)
        (Dict.ofList (head.entries.map fun entry => (entry.path, entry))))
          (dirty, worktreeEntries) =
          .ok (dirty', worktreeEntries ++ paths.filterMap (comparedItem? index)) ∧
      ∀ p, p ∈ dirty' ↔ p ∈ dirty ∨ p ∈ paths ∧ IndexDirty index head p := by
  induction paths generalizing dirty worktreeEntries with
  | nil =>
    refine ⟨dirty, by rw [List.filterMap_nil, List.append_nil]; rfl, fun p => ?_⟩
    exact (or_iff_left fun h => List.not_mem_nil h.1).symm
  | cons path paths ih =>
    obtain ⟨dirty₁, he, hd⟩ := classifyPath_spec head hn dirty worktreeEntries path
    obtain ⟨dirty', hf, hiff⟩ := ih dirty₁ (worktreeEntries ++ (comparedItem? index path).toList)
    rw [List.foldlM_cons, he]
    refine ⟨dirty', hf.trans ?_, fun p => ?_⟩
    · rw [List.append_assoc, List.filterMap_cons]
      cases comparedItem? index path with
      | none => rfl
      | some entry => rfl
    · rw [hiff p, hd p, List.mem_cons, or_assoc, or_and_right]
      apply or_congr_right
      apply or_congr_left
      constructor
      · rintro ⟨rfl, h⟩
        exact ⟨rfl, h⟩
      · rintro ⟨rfl, h⟩
        exact ⟨rfl, h⟩

/-- The object ids of the index and the HEAD tree are of one length. -/
def OneLength (index : List GitIndexEntry) (head : GitTree) : Prop :=
  ∃ n, (∀ entry ∈ index, entry.objectId.length = n) ∧
    ∀ entry ∈ head.entries, entry.objectId.length = n

/-- The algorithm of an object id. -/
def GitIndexEntry.algorithm (entry : GitIndexEntry) : HashAlgorithm :=
  if entry.objectId.length = 64 then .sha256 else .sha1

def Tracked (index : List GitIndexEntry) (head : GitTree) (path : RelativePath) : Prop :=
  (∃ entry ∈ index, entry.path = path) ∨ ∃ entry ∈ head.entries, entry.path = path

/-- What makes a path dirty: it is untracked; or the index and the HEAD tree tell so; or its entry
is expected in the worktree and not found there as it is in the index. -/
def DirtyPath (w : Worktree) (hexdigest : HashAlgorithm → Bytes → Text) (root : Descriptor)
    (index : List GitIndexEntry) (head : GitTree) (untracked : List RelativePath)
    (path : RelativePath) : Prop :=
  path ∈ untracked ∨ (Tracked index head path ∧ IndexDirty index head path) ∨
    ∃ entry, Compared index entry ∧ entry.path = path ∧
      ¬entry.Matches hexdigest entry.algorithm (entry.state w root)

/-- The entries that are compared with the worktree, in the order of their paths. -/
def comparedEntries (index : List GitIndexEntry) (head : GitTree) : List GitIndexEntry :=
  (((Dict.groupBy GitIndexEntry.path index).keys.toFinset ∪
    (Dict.ofList (head.entries.map fun entry => (entry.path, entry))).keys.toFinset).sort).filterMap
      (comparedItem? index)

theorem mem_trackedPaths {path : RelativePath} :
    path ∈ ((Dict.groupBy GitIndexEntry.path index).keys.toFinset ∪
      (Dict.ofList (head.entries.map fun entry => (entry.path, entry))).keys.toFinset).sort ↔
        Tracked index head path := by
  rw [Finset.mem_sort, Finset.mem_union, List.mem_toFinset, List.mem_toFinset,
    Dict.mem_keys_groupBy, Dict.mem_keys]
  apply or_congr_right
  constructor
  · rintro ⟨entry, he⟩
    exact ⟨entry, (headItem_eq head path entry).1 he⟩
  · rintro ⟨entry, he⟩
    exact ⟨entry, (headItem_eq head path entry).2 he⟩

theorem Compared.mem (h : Compared index entry) : entry ∈ index := by
  have hm : entry ∈ candidates index entry.path := by
    rw [h.1.1]
    exact List.mem_cons_self
  exact (List.mem_filter.1 hm).1

theorem mem_comparedEntries {head : GitTree} {entry : GitIndexEntry} :
    entry ∈ comparedEntries index head ↔ Compared index entry := by
  rw [comparedEntries, List.mem_filterMap]
  constructor
  · rintro ⟨path, -, he⟩
    exact (comparedItem_eq_some.1 he).1
  · intro h
    exact ⟨entry.path, mem_trackedPaths.2 (.inl ⟨entry, h.mem, rfl⟩),
      comparedItem_eq_some.2 ⟨h, rfl⟩⟩

theorem pairwise_comparedEntries (index : List GitIndexEntry) (head : GitTree) :
    (comparedEntries index head).Pairwise fun entry other => entry.path < other.path := by
  rw [comparedEntries]
  apply List.Pairwise.filterMap (comparedItem? index) ?_ (Finset.sortedLT_sort _).pairwise
  intro path path' hlt entry he entry' he'
  obtain ⟨-, rfl⟩ := comparedItem_eq_some.1 he
  obtain ⟨-, rfl⟩ := comparedItem_eq_some.1 he'
  exact hlt

theorem requireConsistent_ok (h : OneLength index head) :
    requireConsistentObjectFormat ((index.map (·.objectId.length)).toFinset ∪
      (head.entries.map (·.objectId.length)).toFinset) = .ok () := by
  obtain ⟨n, hi, hh⟩ := h
  apply if_neg
  apply Nat.not_lt.2
  rw [Finset.card_le_one]
  have all (m : Nat) (hm : m ∈ (index.map (·.objectId.length)).toFinset ∪
      (head.entries.map (·.objectId.length)).toFinset) : m = n := by
    obtain hm | hm := Finset.mem_union.1 hm
    · obtain ⟨entry, he, rfl⟩ := List.mem_map.1 (List.mem_toFinset.1 hm)
      exact hi entry he
    · obtain ⟨entry, he, rfl⟩ := List.mem_map.1 (List.mem_toFinset.1 hm)
      exact hh entry he
  intro a ha b hb
  rw [all a ha, all b hb]

theorem algorithm_eq (h : OneLength index head) {entry : GitIndexEntry} (hm : entry ∈ index) :
    (if (index.map (·.objectId.length)).toFinset ∪
        (head.entries.map (·.objectId.length)).toFinset = {64} then HashAlgorithm.sha256
      else .sha1) = entry.algorithm := by
  obtain ⟨n, hi, hh⟩ := h
  have hlengths : (index.map (·.objectId.length)).toFinset ∪
      (head.entries.map (·.objectId.length)).toFinset = {n} := by
    ext m
    rw [Finset.mem_union, List.mem_toFinset, List.mem_toFinset, Finset.mem_singleton]
    constructor
    · rintro (hm | hm)
      · obtain ⟨e, he, rfl⟩ := List.mem_map.1 hm
        exact hi e he
      · obtain ⟨e, he, rfl⟩ := List.mem_map.1 hm
        exact hh e he
    · rintro rfl
      exact .inl (List.mem_map.2 ⟨entry, hm, hi entry hm⟩)
  rw [hlengths, GitIndexEntry.algorithm, hi entry hm]
  simp only [Finset.singleton_inj]

variable {hexdigest : HashAlgorithm → Bytes → Text} {hasher : BlobHasher}
  {untracked : List RelativePath} {n : Nat}

/-- Whatever the batch size is, the first compared entry that cannot be opened decides, and
otherwise exactly the dirty paths are returned. -/
theorem collectDirtyPathsIn_spec (root : Descriptor) (untracked : List RelativePath) {n : Nat}
    (hn : 0 < n) (hmax : n ≤ blobHashBatchMax)
    (hlen : OneLength index head) (hstages : NoConflicts index) (hh : hasher.Hashes w hexdigest) :
    (∃ e, (comparedEntries index head).findSome? (·.failure w root) = some e ∧
      collectDirtyPathsIn n w hexdigest root index head untracked hasher = .error e) ∨
    ((comparedEntries index head).findSome? (·.failure w root) = none ∧
      ∃ dirty : Finset RelativePath,
      collectDirtyPathsIn n w hexdigest root index head untracked hasher = .ok dirty.sort ∧
        ∀ path, path ∈ dirty ↔ DirtyPath w hexdigest root index head untracked path) := by
  rw [collectDirtyPathsIn]
  dsimp only
  rw [requireConsistent_ok hlen]
  generalize halg : (if (index.map (·.objectId.length)).toFinset ∪
    (head.entries.map (·.objectId.length)).toFinset = {64} then HashAlgorithm.sha256
      else .sha1) = algorithm
  have halg' {entry : GitIndexEntry} (hm : entry ∈ index) : entry.algorithm = algorithm :=
    (algorithm_eq hlen hm).symm.trans halg
  obtain ⟨dirty, hclass, hdirty⟩ := classifyPaths_spec head hstages
    (((Dict.groupBy GitIndexEntry.path index).keys.toFinset ∪
      (Dict.ofList (head.entries.map fun entry => (entry.path, entry))).keys.toFinset).sort)
    untracked.toFinset []
  rw [List.nil_append, ← comparedEntries] at hclass
  have hbatches := compareBatches_spec root algorithm hh
    (fun b (hb : b ∈ slices n (comparedEntries index head)) =>
      Nat.le_trans (length_of_mem_slices hb) hmax)
    dirty
  rw [flatten_slices hn] at hbatches
  simp only [bind, Except.bind, hclass]
  obtain ⟨e, hf, he⟩ | ⟨hf, dirty', he, hiff⟩ := hbatches
  · refine .inl ⟨e, hf, ?_⟩
    simp only [bind, Except.bind] at he
    rw [he]
  · refine .inr ⟨hf, dirty', ?_, fun path => ?_⟩
    · simp only [bind, Except.bind] at he
      rw [he]
      rfl
    · rw [hiff path, hdirty path, List.mem_toFinset, mem_trackedPaths, DirtyPath, or_assoc]
      apply or_congr_right
      apply or_congr_right
      constructor
      · rintro ⟨entry, hm, hp, hmatch⟩
        have hc := mem_comparedEntries.1 hm
        exact ⟨entry, hc, hp, by rwa [halg' hc.mem]⟩
      · rintro ⟨entry, hc, hp, hmatch⟩
        exact ⟨entry, mem_comparedEntries.2 hc, hp, by rwa [halg' hc.mem] at hmatch⟩

/-- The errors that refuse to inspect an entry of the worktree. -/
def SafetyError (e : PyError) : Prop := e = unsafeBoundary ∨ e = unsafeEntryType

/-- An entry with a component fails exactly if its place is not safe, and then for that reason. -/
theorem failureAt_cons (current : Descriptor) (part : Text) (rest : List Text) :
    (w.stateAt current (part :: rest) = .refused ∧
      ∃ e, w.failureAt current (part :: rest) = some e ∧ SafetyError e) ∨
    (w.stateAt current (part :: rest) ≠ .refused ∧ w.failureAt current (part :: rest) = none) := by
  induction rest generalizing current part with
  | nil =>
    rw [Worktree.stateAt, Worktree.failureAt]
    cases w.stat current part with
    | none => exact .inr ⟨nofun, rfl⟩
    | some node =>
      dsimp only [Option.map_some]
      cases node.state with
      | refused => exact .inl ⟨rfl, _, rfl, .inr rfl⟩
      | missing => exact .inr ⟨nofun, rfl⟩
      | symlink target => exact .inr ⟨nofun, rfl⟩
      | regular executable content => exact .inr ⟨nofun, rfl⟩
  | cons next rest ih =>
    rw [Worktree.stateAt, Worktree.failureAt]
    cases w.stat current part with
    | none => exact .inr ⟨nofun, rfl⟩
    | some node =>
      dsimp only [Option.map_some]
      cases node.type with
      | directory => exact ih (current ++ [part]) next
      | regular => exact .inr ⟨nofun, rfl⟩
      | _ => exact .inl ⟨rfl, _, rfl, .inl rfl⟩

theorem failure_eq_none_or (w : Worktree) (root : Descriptor) {entry : GitIndexEntry}
    (h : entry.path.parts ≠ []) :
    (entry.state w root = .refused ∧ ∃ e, entry.failure w root = some e ∧ SafetyError e) ∨
      (entry.state w root ≠ .refused ∧ entry.failure w root = none) := by
  rw [GitIndexEntry.state, GitIndexEntry.failure]
  obtain ⟨part, rest, hp⟩ := List.exists_cons_of_ne_nil h
  rw [hp]
  exact failureAt_cons root part rest

theorem failure_of_nil {entry : GitIndexEntry} (h : entry.path.parts = []) :
    entry.failure w root = some tupleIndexError := by
  rw [GitIndexEntry.failure, h, Worktree.failureAt]

theorem failure_of_refused {entry : GitIndexEntry} (h : entry.state w root = .refused) :
    ∃ e, entry.failure w root = some e := by
  have hne : entry.path.parts ≠ [] := by
    intro hnil
    rw [GitIndexEntry.state, hnil, Worktree.stateAt] at h
    exact WorktreeState.noConfusion h
  obtain ⟨-, e, he, -⟩ | ⟨hn, -⟩ := failure_eq_none_or w root hne
  · exact ⟨e, he⟩
  · exact absurd h hn

theorem not_safetyError_tupleIndexError : ¬SafetyError tupleIndexError := by
  rintro (h | h)
  · exact absurd (congrArg PyError.kind h) (by decide)
  · exact absurd (congrArg PyError.kind h) (by decide)

/-- No entry without a component in its path is opened: an entry of a path that sorts before it is
refused. -/
def ComponentsOpened (w : Worktree) (root : Descriptor) (index : List GitIndexEntry) : Prop :=
  ∀ entry, Compared index entry → entry.path.parts = [] →
    ∃ other, Compared index other ∧ other.path < entry.path ∧ other.state w root = .refused

theorem firstFailure_safe_iff (head : GitTree) :
    (∀ e, (comparedEntries index head).findSome? (·.failure w root) = some e → SafetyError e) ↔
      ComponentsOpened w root index := by
  have hsorted := pairwise_comparedEntries index head
  constructor
  · intro h entry hc hnil
    have hm : entry ∈ comparedEntries index head := mem_comparedEntries.2 hc
    obtain ⟨before, after, hsplit⟩ := List.append_of_mem hm
    rw [hsplit, List.findSome?_append, List.findSome?_cons, failure_of_nil hnil] at h
    cases hb : before.findSome? (·.failure w root) with
    | none =>
      rw [hb] at h
      exact absurd (h _ rfl) not_safetyError_tupleIndexError
    | some e =>
      rw [hb] at h
      obtain ⟨other, hm, hf⟩ := List.exists_of_findSome?_eq_some hb
      have hother : other ∈ comparedEntries index head := by
        rw [hsplit]
        exact List.mem_append_left _ hm
      rw [hsplit] at hsorted
      have hlt := (List.pairwise_append.1 hsorted).2.2 other hm entry List.mem_cons_self
      refine ⟨other, mem_comparedEntries.1 hother, hlt, ?_⟩
      have hne : other.path.parts ≠ [] := by
        intro h0
        cases hf.symm.trans (failure_of_nil h0)
        exact not_safetyError_tupleIndexError (h _ rfl)
      obtain ⟨hr, -⟩ | ⟨-, hnone⟩ := failure_eq_none_or w root hne
      · exact hr
      · exact nomatch hnone.symm.trans hf
  · intro h e he
    obtain ⟨before, entry, after, hsplit, hf, hbefore⟩ := List.findSome?_eq_some_iff.1 he
    have hm : entry ∈ comparedEntries index head := by
      rw [hsplit]
      exact List.mem_append_right _ List.mem_cons_self
    by_cases hnil : entry.path.parts = []
    · obtain ⟨other, hc, hlt, hr⟩ := h entry (mem_comparedEntries.1 hm) hnil
      have hother : other ∈ comparedEntries index head := mem_comparedEntries.2 hc
      rw [hsplit] at hother hsorted
      obtain hb | ha := List.mem_append.1 hother
      · obtain ⟨e', he'⟩ := failure_of_refused hr
        exact nomatch he'.symm.trans (hbefore other hb)
      · obtain rfl | ha := List.mem_cons.1 ha
        · exact absurd hlt (lt_irrefl _)
        · have hafter := List.rel_of_pairwise_cons (List.pairwise_append.1 hsorted).2.1 ha
          exact absurd hlt hafter.asymm
    · obtain ⟨-, e', he', hs⟩ | ⟨-, hnone⟩ := failure_eq_none_or w root hnil
      · cases hf.symm.trans he'
        exact hs
      · exact nomatch hnone.symm.trans hf

/-- The paths are sorted by their text, each once, and exactly the dirty ones. -/
def ExactlyDirty (w : Worktree) (hexdigest : HashAlgorithm → Bytes → Text) (root : Descriptor)
    (index : List GitIndexEntry) (head : GitTree) (untracked : List RelativePath)
    (paths : List RelativePath) : Prop :=
  (paths.Pairwise fun p q => p.asPosix < q.asPosix) ∧
    ∀ path, path ∈ paths ↔ DirtyPath w hexdigest root index head untracked path

/-- The inspection ends with a safety error, or returns exactly the dirty paths. -/
def Inspected (w : Worktree) (hexdigest : HashAlgorithm → Bytes → Text) (root : Descriptor)
    (index : List GitIndexEntry) (head : GitTree) (untracked : List RelativePath) :
    Except PyError (List RelativePath) → Prop
  | .error e => SafetyError e
  | .ok paths => ExactlyDirty w hexdigest root index head untracked paths

theorem exactlyDirty_sort {dirty : Finset RelativePath}
    (h : ∀ path, path ∈ dirty ↔ DirtyPath w hexdigest root index head untracked path) :
    ExactlyDirty w hexdigest root index head untracked dirty.sort := by
  refine ⟨(Finset.sortedLT_sort dirty).pairwise, fun path => ?_⟩
  rw [Finset.mem_sort]
  exact h path

theorem blobHashBatchMax_pos : 0 < blobHashBatchMax := Nat.succ_pos 63

theorem inspected_iff (hlen : OneLength index head) (hstages : NoConflicts index)
    (hh : hasher.Hashes w hexdigest) :
    Inspected w hexdigest root index head untracked
      (collectDirtyPaths w hexdigest root index head untracked hasher) ↔
        ComponentsOpened w root index := by
  rw [← firstFailure_safe_iff head, collectDirtyPaths]
  obtain ⟨e, hf, he⟩ | ⟨hf, dirty, he, hiff⟩ := collectDirtyPathsIn_spec root untracked
    blobHashBatchMax_pos le_rfl hlen hstages hh
  · rw [he, hf]
    constructor
    · intro hs e' he'
      cases he'
      exact hs
    · exact fun h => h e rfl
  · rw [he, hf]
    exact iff_of_true (exactlyDirty_sort hiff) fun e he => nomatch he

theorem collectDirtyPathsIn_eq (hn : 0 < n) (hmax : n ≤ blobHashBatchMax)
    (hlen : OneLength index head) (hstages : NoConflicts index) (hh : hasher.Hashes w hexdigest) :
    collectDirtyPathsIn n w hexdigest root index head untracked hasher =
      collectDirtyPaths w hexdigest root index head untracked hasher := by
  rw [collectDirtyPaths]
  obtain ⟨e, hf, he⟩ | ⟨hf, dirty, he, hiff⟩ :=
    collectDirtyPathsIn_spec root untracked hn hmax hlen hstages hh
  · obtain ⟨e', hf', he'⟩ | ⟨hf', -⟩ := collectDirtyPathsIn_spec root
      untracked blobHashBatchMax_pos le_rfl hlen hstages hh
    · rw [he, he', Option.some.inj (hf.symm.trans hf')]
    · exact nomatch hf.symm.trans hf'
  · obtain ⟨e', hf', -⟩ | ⟨-, dirty', he', hiff'⟩ := collectDirtyPathsIn_spec root
      untracked blobHashBatchMax_pos le_rfl hlen hstages hh
    · exact nomatch hf'.symm.trans hf
    · have heq : dirty = dirty' := Finset.ext fun path => (hiff path).trans (hiff' path).symm
      rw [he, he', heq]

/-- The batches that are passed on are of the size that the hasher accepts. -/
theorem hashDescriptors_hashes {helper : BlobHasher}
    (h : ∀ requests algorithm, helper requests algorithm =
      .ok (requests.map fun request => hashGitBlob hexdigest algorithm (request.blob w))) :
    (hashDescriptors helper).Hashes w hexdigest := by
  intro requests algorithm hne hlen
  rw [hashDescriptors, if_neg]
  · exact h requests algorithm
  · exact not_or.2 ⟨hne, Nat.not_lt.2 hlen⟩

theorem noConflicts_of_nodup {index : List GitIndexEntry}
    (h : (index.map GitIndexEntry.path).Nodup) : NoConflicts index := by
  intro path
  have hpaths : (candidates index path).map GitIndexEntry.path =
      List.replicate (candidates index path).length path := by
    refine List.eq_replicate_iff.2 ⟨List.length_map .., fun p hm => ?_⟩
    obtain ⟨entry, he, rfl⟩ := List.mem_map.1 hm
    exact of_decide_eq_true (List.mem_filter.1 he).2
  have hone : (candidates index path).length ≤ 1 := by
    apply List.nodup_replicate.1
    rw [← hpaths]
    exact h.sublist (List.filter_sublist.map GitIndexEntry.path)
  cases hc : candidates index path with
  | nil => exact ⟨List.nodup_nil, fun h => absurd h List.not_mem_nil⟩
  | cons entry rest =>
    rw [hc, List.length_cons] at hone
    have hrest : rest = [] := List.eq_nil_of_length_eq_zero (by omega)
    rw [hrest]
    exact ⟨List.nodup_singleton _, fun _ => rfl⟩

theorem dirty_paths_exact_iff {w : Worktree} {hexdigest : HashAlgorithm → Bytes → Text}
    {root : Descriptor} {index : List GitIndexEntry} {head : GitTree}
    {untracked : List RelativePath}
    {hasher : BlobHasher} (hlen : OneLength index head) (hstages : NoConflicts index)
    (hh : hasher.Hashes w hexdigest) :
    (Inspected w hexdigest root index head untracked
        (collectDirtyPaths w hexdigest root index head untracked hasher) ∧
      ∀ n, 0 < n → n ≤ blobHashBatchMax →
        collectDirtyPathsIn n w hexdigest root index head untracked hasher =
          collectDirtyPaths w hexdigest root index head untracked hasher) ↔
      ComponentsOpened w root index := by
  rw [and_iff_left fun n hn hmax => collectDirtyPathsIn_eq hn hmax hlen hstages hh]
  exact inspected_iff hlen hstages hh

/-- The blob id of an empty file. -/
def emptyBlobId : Text := text "e69de29bb2d1d6434b8b29ae775ad8c2e48c5391"

def emptyFileEntry (path : RelativePath) : GitIndexEntry :=
  ⟨.cached, .regular, emptyBlobId, 0, path⟩

def namedPath : RelativePath := ⟨[text "a"], by decide⟩

/-- `Path(".")`. -/
def dotPath : RelativePath := ⟨[], by decide⟩

example : parseRepositoryPath (text ".") (text "index") = .ok dotPath := rfl

/-- A worktree that holds one empty file. -/
def emptyFileWorktree : Worktree := fun descriptor =>
  if descriptor = [text "a"] then some ⟨⟨0, 0, 0o100644, 0, 0, 0⟩, [], fun _ => rfl⟩ else none

def emptyBlobHasher : BlobHasher :=
  hashDescriptors fun requests _ => .ok (requests.map fun _ => emptyBlobId)

def emptyTree : GitTree := ⟨[], .nil⟩

theorem emptyBlobHasher_hashes : emptyBlobHasher.Hashes emptyFileWorktree fun _ _ => emptyBlobId :=
  hashDescriptors_hashes fun _ _ => rfl

theorem oneLength_singleton {entry : GitIndexEntry} : OneLength [entry] emptyTree := by
  refine ⟨entry.objectId.length, fun other hm => ?_, fun other hm => absurd hm List.not_mem_nil⟩
  rw [List.mem_singleton.1 hm]

/-- A worktree that holds an empty file and one with the letter a. -/
def twoFiles : Worktree := fun descriptor =>
  if descriptor = [text "a"] then some ⟨⟨0, 0, 0o100644, 0, 0, 0⟩, [], fun _ => rfl⟩
  else if descriptor = [text "b"] then some ⟨⟨0, 1, 0o100644, 1, 0, 0⟩, [0x61], fun _ => rfl⟩
  else none

/-- The SHA-1 digests of their blobs. -/
def fileDigest (_ : HashAlgorithm) (data : Bytes) : Text :=
  if data = asciiBytes (text "blob 0" ++ [0]) then emptyBlobId
  else text "2e65efe2a145dda7ee51d1741299f848e5bf752e"

/-- The index takes both files to be empty, and HEAD has only one of them. -/
def twoEntries : List GitIndexEntry :=
  [emptyFileEntry namedPath, emptyFileEntry ⟨[text "b"], by decide⟩]

def oneEntryTree : GitTree := ⟨[⟨.regular, emptyBlobId, namedPath⟩], List.nodup_singleton _⟩

def fileHasher : BlobHasher :=
  hashDescriptors fun requests algorithm =>
    .ok (requests.map fun request => hashGitBlob fileDigest algorithm (request.blob twoFiles))

theorem two_files_inspected : Inspected twoFiles fileDigest [] twoEntries oneEntryTree []
    (collectDirtyPaths twoFiles fileDigest [] twoEntries oneEntryTree [] fileHasher) := by
  have hlen : OneLength twoEntries oneEntryTree := ⟨40, by decide +kernel, by decide +kernel⟩
  have hstages : NoConflicts twoEntries := noConflicts_of_nodup (by decide +kernel)
  have hh : fileHasher.Hashes twoFiles fileDigest := hashDescriptors_hashes fun _ _ => rfl
  apply ((dirty_paths_exact_iff hlen hstages hh).2 ?_).1
  intro entry hc hnil
  obtain rfl | hm := List.mem_cons.1 hc.mem
  · exact absurd hnil (List.cons_ne_nil _ _)
  · rw [List.mem_singleton.1 hm] at hnil
    exact absurd hnil (List.cons_ne_nil _ _)

/-- `_parse_repository_path` accepts the path `.`, which has no component to open. -/
theorem dot_path_escapes : ¬∀ (w : Worktree) (hexdigest : HashAlgorithm → Bytes → Text)
    (root : Descriptor) (index : List GitIndexEntry) (head : GitTree)
    (untracked : List RelativePath) (hasher : BlobHasher), OneLength index head →
    NoConflicts index → hasher.Hashes w hexdigest →
      Inspected w hexdigest root index head untracked
        (collectDirtyPaths w hexdigest root index head untracked hasher) := by
  intro h
  have hins := h emptyFileWorktree (fun _ _ => emptyBlobId) [] [emptyFileEntry dotPath] emptyTree []
    emptyBlobHasher oneLength_singleton (noConflicts_of_nodup (List.nodup_singleton _))
    emptyBlobHasher_hashes
  have hopened := (inspected_iff oneLength_singleton
    (noConflicts_of_nodup (List.nodup_singleton _)) emptyBlobHasher_hashes).1 hins
  have hc : Compared [emptyFileEntry dotPath] (emptyFileEntry dotPath) := by
    refine ⟨⟨?_, rfl⟩, nofun, nofun⟩
    rw [candidates, List.filter_cons, if_pos (decide_eq_true rfl), List.filter_nil]
  obtain ⟨other, hother, hlt, -⟩ := hopened (emptyFileEntry dotPath) hc rfl
  rw [List.mem_singleton.1 hother.mem] at hlt
  exact lt_irrefl _ hlt

end GoalRouter
