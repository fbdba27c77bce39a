import GoalRouter.Decoding
import GoalRouter.DirtyPaths
import GoalRouter.EvidenceInspection
import GoalRouter.Library.DataRefinement

namespace GoalRouter
open Library
set_option autoImplicit true

namespace LocalRepositoryInspector

/-- The place that each open descriptor was opened at. -/
abbrev Places := Nat → Option Descriptor

/-- What an inspection finds outside: the entries, the hasher, and what Git prints. -/
structure Surroundings where
  worktree : Worktree
  place : PurePath → Descriptor
  hasher : BlobHasher
  git : List Text → CommandResult

/-- Every call may fail in any way, except that no entry is said to be missing that is there. The
descriptors are any that are free. -/
inductive Answers (env : Surroundings) : Prog.Answers Val Raised Places where
  | openPath (hf : s descriptor = none) :
      Answers env s (.openPath path directory) (.ok descriptor)
        (Function.update s descriptor (some (env.place path)))
  | openDirectory (hc : s current = some p) (hf : s descriptor = none)
      (ho : env.worktree.openDirectory p name = .ok q) :
      Answers env s (.openAt name current true) (.ok descriptor)
        (Function.update s descriptor (some q))
  | openFile (hc : s current = some p) (hf : s descriptor = none)
      (ho : env.worktree.openFile p name = .ok q) :
      Answers env s (.openAt name current false) (.ok descriptor)
        (Function.update s descriptor (some q))
  | duplicate (hc : s current = some p) (hf : s descriptor = none) :
      Answers env s (.duplicate current) (.ok descriptor) (Function.update s descriptor (some p))
  | closed : Answers env s (.close descriptor) r (Function.update s descriptor none)
  | fstat {fingerprint : FileFingerprint} (hc : s current = some p)
      (hs : env.worktree.fstat p = .ok fingerprint) :
      Answers env s (.fstat current) (.ok fingerprint) s
  | statAt (hc : s current = some p) (hs : env.worktree.stat p name = some node) :
      Answers env s (.statAt name current) (.ok node.fingerprint) s
  | missing (hc : s current = some p) (hs : env.worktree.stat p name = none) :
      Answers env s (.statAt name current) (.error e) s
  | readlink (hc : s current = some p) (hr : env.worktree.readlink p name = .ok content) :
      Answers env s (.readlink name current) (.ok content) s
  | captured {outcomes : List (Except Raised CommandResult)} (hl : outcomes.length = argvs.length)
      (ho : ∀ outcome ∈ outcomes.zip argvs, ∀ result, outcome.1 = .ok result →
        result = env.git outcome.2) :
      Answers env s (.captureGitCommands argvs cwd) (.ok ⟨outcomes, hl⟩) s
  | hashed {requests : List BlobHashRequest} {requests' : List GoalRouter.BlobHashRequest}
      (hr : List.Forall₂ (fun request request' => s request.descriptor = some request'.descriptor ∧
        request.size = request'.size) requests requests')
      (hh : env.hasher requests' algorithm = .ok digests) :
      Answers env s (.hashDescriptors requests algorithm) (.ok digests) s
  | stat : Answers env s (.stat path) r s
  | readText : Answers env s (.readText descriptor) r s
  | resolve : Answers env s (.resolve path) r s
  | isDirectory : Answers env s (.isDirectory path) r s
  | isFile : Answers env s (.isFile path) r s
  | languageCounts : Answers env s (.languageCounts path) r s
  | settled : Answers env s (.settled operation returned) r s
  | expired : Answers env s .expired r s
  | runReadOnly : Answers env s (.runReadOnly argv cwd) r s
  | failed (hm : ∀ name current, c = .statAt name current → isFileNotFound e = false) :
      Answers env s c (.error e) s

/-- What was open is open still, at the same place. -/
def Keeps (s s' : Places) : Prop := ∀ descriptor p, s descriptor = some p → s' descriptor = some p

theorem Keeps.refl (s : Places) : Keeps s s := fun _ _ h => h

theorem Keeps.trans (h : Keeps s s') (h' : Keeps s' s'') : Keeps s s'' :=
  fun descriptor p hp => h' descriptor p (h descriptor p hp)

theorem Keeps.update {s : Places} (hf : s descriptor = none) (p : Descriptor) :
    Keeps s (Function.update s descriptor (some p)) := by
  intro other q hq
  rw [Function.update_of_ne]
  · exact hq
  · rintro rfl
    rw [hf] at hq
    cases hq

/-- A guard of a directory that is open. -/
structure GuardAt (s : Places) (guard : DirectoryGuard) (guard' : GoalRouter.DirectoryGuard) :
    Prop where
  parent : s guard.parentDescriptor = some guard'.parentDescriptor
  name : guard.name = guard'.name
  descriptor : s guard.descriptor = some guard'.descriptor
  fingerprint : guard.fingerprint = guard'.fingerprint

/-- An opened entry, by descriptors and by the places they are open at. -/
structure OpenedAt (s : Places) (opened : OpenedWorktreeEntry)
    (opened' : GoalRouter.OpenedWorktreeEntry) : Prop where
  kind : opened.kind = opened'.kind
  mode : opened.mode = opened'.mode
  descriptor : Option.Rel (fun descriptor p => s descriptor = some p) opened.descriptor
    opened'.descriptor
  fingerprint : opened.fingerprint = opened'.fingerprint
  symlinkContent : opened.symlinkContent = opened'.symlinkContent
  leafParent : s opened.leafParentDescriptor = some opened'.leafParentDescriptor
  leafName : opened.leafName = opened'.leafName
  guards : List.Forall₂ (GuardAt s) opened.directoryGuards opened'.directoryGuards

theorem GuardAt.keeps {guard : DirectoryGuard} (h : GuardAt s guard guard') (hk : Keeps s s') :
    GuardAt s' guard guard' :=
  ⟨hk _ _ h.parent, h.name, hk _ _ h.descriptor, h.fingerprint⟩

theorem guards_keep {guards : List DirectoryGuard} {guards' : List GoalRouter.DirectoryGuard}
    (h : List.Forall₂ (GuardAt s) guards guards') (hk : Keeps s s') :
    List.Forall₂ (GuardAt s') guards guards' :=
  h.imp fun _ _ h => h.keeps hk

theorem descriptor_keeps {descriptor : Option Nat} {p : Option Descriptor}
    (h : Option.Rel (fun descriptor p => s descriptor = some p) descriptor p) (hk : Keeps s s') :
    Option.Rel (fun descriptor p => s' descriptor = some p) descriptor p := by
  cases h with
  | none => exact .none
  | some hd => exact .some (hk _ _ hd)

theorem OpenedAt.keeps (h : OpenedAt s opened opened') (hk : Keeps s s') :
    OpenedAt s' opened opened' where
  kind := h.kind
  mode := h.mode
  descriptor := descriptor_keeps h.descriptor hk
  fingerprint := h.fingerprint
  symlinkContent := h.symlinkContent
  leafParent := hk _ _ h.leafParent
  leafName := h.leafName
  guards := guards_keep h.guards hk

section Calls

variable {env : Surroundings} {s : Places} {current : Nat} {p : Descriptor}

/-- The program comes to what it refines, in a world with these surroundings. -/
abbrev Refines (env : Surroundings) (p : Inspection α) (x : Except PyError α')
    (S : α → α' → Places → Prop) (s : Places) : Prop :=
  p.Refines (Answers env) x S s

abbrev Produces (env : Surroundings) (p : Inspection α) (Q : α → Places → Prop) (s : Places) :
    Prop :=
  p.Produces (Answers env) Q s

theorem fstat_produces (hc : s current = some p) :
    Produces env (invoke (.fstat current))
      (fun fingerprint s' => env.worktree.fstat p = .ok fingerprint ∧ s' = s) s := by
  apply Prog.Produces.invoke
  intro fingerprint s' hn
  cases hn with
  | fstat hc' hs =>
    rw [hc] at hc'
    cases hc'
    exact ⟨hs, rfl⟩

theorem statAt_produces (hc : s current = some p) (name : Text) :
    Produces env (invoke (.statAt name current))
      (fun fingerprint s' =>
        (env.worktree.stat p name).map WorktreeNode.fingerprint = some fingerprint ∧ s' = s) s := by
  apply Prog.Produces.invoke
  intro fingerprint s' hn
  cases hn with
  | statAt hc' hs =>
    rw [hc] at hc'
    cases hc'
    rw [hs]
    exact ⟨rfl, rfl⟩

theorem readlink_produces (hc : s current = some p) (name : Text) :
    Produces env (invoke (.readlink name current))
      (fun content s' => env.worktree.readlink p name = .ok content ∧ s' = s) s := by
  apply Prog.Produces.invoke
  intro content s' hn
  cases hn with
  | readlink hc' hr =>
    rw [hc] at hc'
    cases hc'
    exact ⟨hr, rfl⟩

/-- A descriptor that was free is open at `q`. -/
structure OpensAt (s : Places) (descriptor : Nat) (q : Descriptor) (s' : Places) : Prop where
  free : s descriptor = none
  place : s' descriptor = some q
  keeps : Keeps s s'

theorem OpensAt.update (hf : s descriptor = none) (q : Descriptor) :
    OpensAt s descriptor q (Function.update s descriptor (some q)) :=
  ⟨hf, Function.update_self .., .update hf q⟩

theorem duplicate_produces (hc : s current = some p) :
    Produces env (invoke (.duplicate current)) (fun descriptor => OpensAt s descriptor p) s := by
  apply Prog.Produces.invoke
  intro descriptor s' hn
  cases hn with
  | duplicate hc' hf =>
    rw [hc] at hc'
    cases hc'
    exact .update hf p

theorem openDirectory_produces (hc : s current = some p) (name : Text) :
    Produces env (invoke (.openAt name current true)) (fun descriptor s' =>
      ∃ q, env.worktree.openDirectory p name = .ok q ∧ OpensAt s descriptor q s') s := by
  apply Prog.Produces.invoke
  intro descriptor s' hn
  cases hn with
  | openDirectory hc' hf ho =>
    rw [hc] at hc'
    cases hc'
    exact ⟨_, ho, .update hf _⟩

theorem openFile_produces (hc : s current = some p) (name : Text) :
    Produces env (invoke (.openAt name current false)) (fun descriptor s' =>
      ∃ q, env.worktree.openFile p name = .ok q ∧ OpensAt s descriptor q s') s := by
  apply Prog.Produces.invoke
  intro descriptor s' hn
  cases hn with
  | openFile hc' hf ho =>
    rw [hc] at hc'
    cases hc'
    exact ⟨_, ho, .update hf _⟩

theorem catching_produces {q : Inspection α} {isCaught : Raised → Bool}
    {handler : Raised → Inspection α} {Q : α → Places → Prop} (h : Produces env q Q s)
    (hh : ∀ e s, Produces env (handler e) Q s) :
    Produces env (catching isCaught q handler) Q s := by
  apply h.attempt_bind
  · exact fun a s hq => hq
  · intro e s
    simp only
    split
    · exact hh e s
    · exact Prog.Produces.throw e

theorem fail_produces (message : Text) {Q : α → Places → Prop} :
    Produces env (fail message) Q s := trivial

theorem statIfPresent_produces (hc : s current = some p) (name : Text) :
    Produces env (statIfPresent name current)
      (fun fingerprint s' =>
        (env.worktree.stat p name).map WorktreeNode.fingerprint = fingerprint ∧ s' = s) s := by
  have hinvoke : (some <$> invoke (.statAt name current) : Inspection (Option FileFingerprint)).Safe
      (Answers env) (fun _ => True)
      (fun fingerprint s' =>
        (env.worktree.stat p name).map WorktreeNode.fingerprint = fingerprint ∧ s' = s)
      (fun e s' => (isFileNotFound e = true → env.worktree.stat p name = none) ∧ s' = s) s := by
    intro r s' hn
    refine ⟨trivial, ?_⟩
    cases hn with
    | statAt hc' hs =>
      rw [hc] at hc'
      cases hc'
      refine ⟨?_, rfl⟩
      rw [hs]
      rfl
    | missing hc' hs =>
      rw [hc] at hc'
      cases hc'
      exact ⟨fun _ => hs, rfl⟩
    | failed hm =>
      refine ⟨fun he => ?_, rfl⟩
      rw [hm _ _ rfl] at he
      cases he
  apply hinvoke.attempt_bind
  intro r s' hr
  cases r with
  | ok fingerprint => exact hr
  | error e =>
    obtain ⟨hmissing, rfl⟩ := hr
    simp only
    split
    · rename_i he
      refine ⟨?_, rfl⟩
      rw [hmissing he]
      rfl
    · trivial

end Calls

section Opening

variable {env : Surroundings} {s : Places} {current : Nat} {p : Descriptor}
  {guards : List DirectoryGuard} {guards' : List GoalRouter.DirectoryGuard}

/-- The block opened an entry; what it collected over `l` was free before. -/
structure Opened (s : Places) (l : List Nat) (opened : OpenedWorktreeEntry)
    (opened' : GoalRouter.OpenedWorktreeEntry) (l' : List Nat) (s' : Places) : Prop where
  openedAt : OpenedAt s' opened opened'
  keeps : Keeps s s'
  owned : opened.ownedDescriptors = l'
  free : ∀ descriptor ∈ l', descriptor ∈ l ∨ s descriptor = none

theorem opened_nonmatching (hc : s current = some p) (hg : List.Forall₂ (GuardAt s) guards guards')
    (name : Text) (fingerprint : Option FileFingerprint) (l : List Nat) (ps : List Descriptor) :
    Opened s l (openedNonmatchingEntry current name guards fingerprint l)
      (GoalRouter.openedNonmatchingEntry p name guards' ps fingerprint) l s where
  openedAt := ⟨rfl, rfl, .none, rfl, rfl, hc, rfl, hg⟩
  keeps := .refl s
  owned := rfl
  free _ hm := .inl hm

theorem openLeaf_refines (hc : s current = some p)
    (hg : List.Forall₂ (GuardAt s) guards guards') (mode : EntryMode) (leaf : Text) (l : List Nat)
    (ps : List Descriptor) :
    TryBlock.Refines (Answers env) (openLeaf mode current guards leaf)
      (GoalRouter.openLeaf env.worktree mode p ps guards' leaf) (Opened s l) l s := by
  rw [openLeaf, GoalRouter.openLeaf]
  apply TryBlock.Refines.perform (statIfPresent_produces hc leaf)
  rintro fingerprint s' ⟨rfl, rfl⟩
  have hnonmatching (fingerprint : Option FileFingerprint) :=
    opened_nonmatching hc hg leaf fingerprint l ps
  cases hstat : env.worktree.stat p leaf with
  | none => exact TryBlock.Refines.collected (.pure (hnonmatching none))
  | some before =>
    dsimp only [Option.map_some, WorktreeNode.type]
    cases ht : modeType before.fingerprint.mode with
    | directory => exact TryBlock.Refines.collected (.pure (hnonmatching _))
    | symlink =>
      dsimp only
      by_cases hm : mode = .symlink
      · rw [if_neg (not_not_intro hm), if_neg (not_not_intro hm)]
        apply TryBlock.Refines.perform (readlink_produces hc leaf)
        rintro (content : Bytes) s' ⟨hread, rfl⟩
        apply TryBlock.Refines.perform (statAt_produces hc leaf)
        rintro (after : FileFingerprint) s' ⟨hafter, rfl⟩
        rw [hstat] at hafter
        cases hafter
        rw [hread, ok_bind, if_neg (not_not_intro rfl), if_neg (not_not_intro rfl)]
        apply TryBlock.Refines.collected
        refine .pure ⟨⟨rfl, rfl, .none, rfl, rfl, hc, rfl, hg⟩, .refl _, rfl, fun _ hd => .inl hd⟩
      · rw [if_pos hm, if_pos hm]
        exact TryBlock.Refines.collected (.pure (hnonmatching _))
    | regular =>
      dsimp only
      cases hm : mode.isRegular with
      | true =>
        have hfalse : ¬((!true) = true) := Bool.false_ne_true
        rw [if_neg hfalse, if_neg hfalse]
        apply TryBlock.Refines.collect (openFile_produces hc leaf)
        rintro (descriptor : Nat) s' ⟨q, hopen, hq⟩
        apply TryBlock.Refines.perform (fstat_produces hq.place)
        rintro (fingerprint : FileFingerprint) s' ⟨hfstat, rfl⟩
        rw [hopen, ok_bind, hfstat, ok_bind]
        by_cases hf : fingerprint = before.fingerprint
        · rw [if_neg (not_not_intro hf), if_neg (not_not_intro hf)]
          apply TryBlock.Refines.collected
          refine .pure ⟨⟨rfl, rfl, .some hq.place, rfl, rfl, hq.keeps _ _ hc, rfl,
            guards_keep hg hq.keeps⟩, hq.keeps, rfl, fun d hd => ?_⟩
          rcases List.mem_append.1 hd with hd | hd
          · exact .inl hd
          · rw [List.mem_singleton.1 hd]
            exact .inr hq.free
        · rw [if_pos hf]
          exact TryBlock.Refines.raise _
      | false => exact TryBlock.Refines.collected (.pure (hnonmatching _))
    | _ => exact TryBlock.Refines.raise _

theorem Keeps.free (h : Keeps s s') (hf : s' descriptor = none) : s descriptor = none := by
  cases hs : s descriptor with
  | none => rfl
  | some p =>
    rw [h descriptor p hs] at hf
    cases hf

theorem Opened.below {child : Nat} {q : Descriptor} {opened : OpenedWorktreeEntry}
    (h : Opened s' (l ++ [child]) opened opened' l' s'') (hq : OpensAt s child q s') :
    Opened s l opened opened' l' s'' where
  openedAt := h.openedAt
  keeps := hq.keeps.trans h.keeps
  owned := h.owned
  free descriptor hm := by
    rcases h.free descriptor hm with hl | hf
    · rcases List.mem_append.1 hl with hl | hc
      · exact .inl hl
      · rw [List.mem_singleton.1 hc]
        exact .inr hq.free
    · exact .inr (hq.keeps.free hf)

theorem openBelow_refines (mode : EntryMode) {parts : List Text} (hc : s current = some p)
    (hg : List.Forall₂ (GuardAt s) guards guards') (l : List Nat) (ps : List Descriptor) :
    TryBlock.Refines (Answers env) (openBelow mode current guards parts)
      (GoalRouter.openBelow env.worktree mode p ps guards' parts) (Opened s l) l s := by
  induction parts generalizing s current p guards guards' l ps with
  | nil => exact TryBlock.Refines.raise _
  | cons part rest ih =>
    cases rest with
    | nil => exact openLeaf_refines hc hg mode part l ps
    | cons next rest =>
      rw [openBelow, GoalRouter.openBelow]
      apply TryBlock.Refines.perform (statIfPresent_produces hc part)
      rintro fingerprint s' ⟨rfl, rfl⟩
      have hnonmatching (fingerprint : Option FileFingerprint) :=
        opened_nonmatching hc hg part fingerprint l ps
      cases hstat : env.worktree.stat p part with
      | none => exact TryBlock.Refines.collected (.pure (hnonmatching none))
      | some before =>
        dsimp only [Option.map_some, WorktreeNode.type]
        split
        · exact TryBlock.Refines.raise _
        · split
          · exact TryBlock.Refines.collected (.pure (hnonmatching _))
          · apply TryBlock.Refines.collect (openDirectory_produces hc part)
            rintro (child : Nat) s' ⟨q, hopen, hq⟩
            apply TryBlock.Refines.perform (fstat_produces hq.place)
            rintro (fingerprint : FileFingerprint) s' ⟨hfstat, rfl⟩
            rw [hopen, ok_bind, hfstat, ok_bind]
            by_cases hf : fingerprint = before.fingerprint
            · rw [if_neg (not_not_intro hf), if_neg (not_not_intro hf)]
              have hguard : GuardAt s' ⟨current, part, child, fingerprint⟩
                  ⟨p, part, q, fingerprint⟩ :=
                ⟨hq.keeps _ _ hc, rfl, hq.place, rfl⟩
              have hguards := List.rel_append (guards_keep hg hq.keeps) (.cons hguard .nil)
              apply (ih hq.place hguards (l ++ [child]) (ps ++ [q])).mono
              exact fun _ _ _ _ h => h.below hq
            · rw [if_pos hf]
              exact TryBlock.Refines.raise _

/-- However the descriptors are numbered, an entry is opened as its place says. -/
theorem openWorktreeEntry_refines {root : Nat} (hr : s root = some p) (entry : GitIndexEntry) :
    Refines env (openWorktreeEntry root entry.path entry.mode)
      (GoalRouter.openWorktreeEntry env.worktree p entry.path entry.mode)
      (fun opened opened' s' => Opened s [] opened opened' opened.ownedDescriptors s') s := by
  rw [openWorktreeEntry, GoalRouter.openWorktreeEntry]
  apply Prog.Refines.after (duplicate_produces hr)
  rintro (descriptor : Nat) s' hopened
  apply Prog.Produces.bind (openBelow_refines entry.mode hopened.place .nil [descriptor] [p])
  rintro ⟨outcome, descriptors⟩ s'' hout
  cases outcome with
  | ok opened =>
    obtain ⟨opened', hx, hs⟩ := hout opened rfl
    have howned := hs.owned
    subst howned
    exact ⟨opened', hx, Opened.below (l := []) hs hopened⟩
  | error e =>
    apply Prog.Produces.bind (.any _ _)
    exact fun _ _ _ => Prog.Produces.throw e

end Opening

section Threads

variable {env : Surroundings} {s : Places} {q : Inspection α} {Q : α → Places → Prop}

theorem runFilesystemOperation_produces (operation : FilesystemOperation) (h : Produces env q Q s) :
    Produces env (runFilesystemOperation operation q) Q s := by
  have hsettled (s : Places) (returned : Bool) : Produces env (invoke (.settled operation returned))
      (fun _ s' => s' = s) s := by
    apply Prog.Produces.invoke
    intro wait s' hn
    cases hn with
    | settled => rfl
  apply h.attempt_bind
  · intro a s hq
    apply (hsettled s _).bind
    rintro (wait : ThreadWait) s' rfl
    cases waitLoop wait.observed wait.interruptions with
    | nil => exact hq
    | cons c cs => exact Prog.Produces.throw _
  · intro e s
    apply (hsettled s _).bind
    rintro (wait : ThreadWait) s' rfl
    cases waitLoop wait.observed wait.interruptions with
    | nil => exact Prog.Produces.throw _
    | cons c cs => exact Prog.Produces.throw _

theorem withTimeout_produces (h : Produces env q Q s) : Produces env (withTimeout q) Q s := by
  apply catching_produces h
  intro e s
  apply Prog.Produces.bind (.any _ _)
  intro (expired : Bool) s _
  cases expired with
  | true => exact Prog.Produces.throw _
  | false => exact Prog.Produces.throw _

end Threads

section Validating

variable {env : Surroundings} {s : Places}

theorem validateGuard_refines {guard : DirectoryGuard} {guard' : GoalRouter.DirectoryGuard}
    (hg : GuardAt s guard guard') :
    Refines env (validateGuard guard) (GoalRouter.validateGuard env.worktree guard')
      (fun _ _ s' => s' = s) s := by
  rw [validateGuard, GoalRouter.validateGuard]
  apply Prog.Refines.after (fstat_produces hg.descriptor)
  rintro (current : FileFingerprint) s' ⟨hfstat, rfl⟩
  rw [hfstat, ok_bind, hg.fingerprint, hg.name]
  split
  · exact Prog.Refines.throw _
  · apply Prog.Refines.after (statAt_produces hg.parent guard'.name)
    rintro (current : FileFingerprint) s' ⟨hstat, rfl⟩
    split
    · exact Prog.Refines.throw _
    · rename_i hc
      obtain ⟨node, hnode, rfl⟩ := Option.map_eq_some_iff.1 hstat
      rw [hnode]
      dsimp only
      rw [if_neg hc]
      exact Prog.Refines.pure rfl

theorem OpenedAt.descriptor_none {opened : OpenedWorktreeEntry}
    {opened' : GoalRouter.OpenedWorktreeEntry} (ho : OpenedAt s opened opened')
    (hd : opened.descriptor = none) : opened'.descriptor = none := by
  have hrel := ho.descriptor
  rw [hd] at hrel
  generalize opened'.descriptor = place at hrel
  cases hrel with
  | none => rfl

theorem OpenedAt.descriptor_some {opened : OpenedWorktreeEntry}
    {opened' : GoalRouter.OpenedWorktreeEntry} {descriptor : Nat} (ho : OpenedAt s opened opened')
    (hd : opened.descriptor = some descriptor) :
    ∃ p, opened'.descriptor = some p ∧ s descriptor = some p := by
  have hrel := ho.descriptor
  rw [hd] at hrel
  generalize opened'.descriptor = place at hrel
  cases hrel with
  | some hp => exact ⟨_, rfl, hp⟩

theorem OpenedAt.descriptor_eq_none {opened : OpenedWorktreeEntry}
    {opened' : GoalRouter.OpenedWorktreeEntry} (ho : OpenedAt s opened opened') :
    opened.descriptor = none ↔ opened'.descriptor = none := by
  refine ⟨ho.descriptor_none, fun hp => ?_⟩
  cases hd : opened.descriptor with
  | none => rfl
  | some descriptor =>
    obtain ⟨p, hp', -⟩ := ho.descriptor_some hd
    rw [hp] at hp'
    cases hp'

/-- What `validateOpenedWorktreeEntry` ends with. -/
def validateLeaf (opened : OpenedWorktreeEntry) : Inspection Unit := do
  match ← statIfPresent opened.leafName opened.leafParentDescriptor with
  | none =>
    if opened.fingerprint = none then return ()
    else .throw (raisedOSError "tracked worktree entry disappeared")
  | some currentLeaf =>
    if some currentLeaf ≠ opened.fingerprint then
      .throw (raisedOSError "tracked worktree entry changed")
    else return ()

theorem validateOpenedWorktreeEntry_eq (opened : OpenedWorktreeEntry) :
    validateOpenedWorktreeEntry opened = (do
      opened.directoryGuards.forM validateGuard
      validateFile opened
      validateLeaf opened) :=
  rfl

/-- The leaf is still there as it was, if that is found. -/
theorem validateLeaf_produces {opened : OpenedWorktreeEntry}
    {opened' : GoalRouter.OpenedWorktreeEntry} (ho : OpenedAt s opened opened') :
    Produces env (validateLeaf opened) (fun _ s' =>
      (env.worktree.stat opened'.leafParentDescriptor opened'.leafName).map
        WorktreeNode.fingerprint = opened'.fingerprint ∧ s' = s) s := by
  rw [validateLeaf, ho.leafName, ho.fingerprint]
  apply (statIfPresent_produces ho.leafParent opened'.leafName).bind
  rintro fingerprint s' ⟨hstat, rfl⟩
  cases fingerprint with
  | none =>
    dsimp only
    split
    · rename_i hf
      rw [hf]
      exact ⟨hstat, rfl⟩
    · exact Prog.Produces.throw _
  | some fingerprint =>
    dsimp only
    split
    · exact Prog.Produces.throw _
    · rename_i hf
      rw [← not_not.1 hf]
      exact ⟨hstat, rfl⟩

theorem validateFile_produces {opened : OpenedWorktreeEntry}
    {opened' : GoalRouter.OpenedWorktreeEntry} (ho : OpenedAt s opened opened') :
    Produces env (validateFile opened) (fun _ s' =>
      (∀ p, opened'.descriptor = some p → ∃ fingerprint, opened'.fingerprint = some fingerprint ∧
        env.worktree.fstat p = .ok fingerprint) ∧ s' = s) s := by
  rw [validateFile, ho.fingerprint]
  cases hd : opened.descriptor with
  | none =>
    refine ⟨fun p hp => ?_, rfl⟩
    rw [ho.descriptor_none hd] at hp
    cases hp
  | some descriptor =>
    obtain ⟨p, hp, hplace⟩ := ho.descriptor_some hd
    dsimp only
    split
    · exact Prog.Produces.throw _
    · apply (fstat_produces hplace).bind
      rintro (current : FileFingerprint) s' ⟨hfstat, rfl⟩
      split
      · exact Prog.Produces.throw _
      · rename_i hf
        refine ⟨fun q hq => ⟨current, (not_not.1 hf).symm, ?_⟩, rfl⟩
        rw [hp] at hq
        cases hq
        exact hfstat

theorem validateOpenedWorktreeEntry_refines {opened : OpenedWorktreeEntry}
    {opened' : GoalRouter.OpenedWorktreeEntry} (ho : OpenedAt s opened opened') :
    Refines env (validateOpenedWorktreeEntry opened)
      (GoalRouter.validateOpenedWorktreeEntry env.worktree opened') (fun _ _ s' => s' = s) s := by
  rw [validateOpenedWorktreeEntry_eq, GoalRouter.validateOpenedWorktreeEntry]
  have hguards : Refines env (opened.directoryGuards.forM validateGuard)
      (opened'.directoryGuards.forM (GoalRouter.validateGuard env.worktree))
      (fun _ _ s' => s' = s) s := by
    apply Prog.Refines.forM (I := fun s' => s' = s) _ ho.guards rfl
    rintro guard guard' s' hg rfl
    exact validateGuard_refines hg
  apply hguards.bind
  rintro _ _ s' rfl
  apply Prog.Refines.after (validateFile_produces ho)
  rintro _ s' ⟨hfile, rfl⟩
  apply (validateLeaf_produces ho).mono
  rintro _ s'' ⟨hleaf, rfl⟩
  refine ⟨(), ?_, rfl⟩
  cases hd : opened'.descriptor with
  | none =>
    cases hstat : env.worktree.stat opened'.leafParentDescriptor opened'.leafName with
    | none =>
      rw [hstat] at hleaf
      exact if_neg (not_not_intro hleaf.symm)
    | some node =>
      rw [hstat] at hleaf
      exact if_neg (not_not_intro hleaf)
  | some p =>
    obtain ⟨fingerprint, hf, hfstat⟩ := hfile p hd
    rw [hf] at hleaf ⊢
    obtain ⟨node, hnode, rfl⟩ := Option.map_eq_some_iff.1 hleaf
    simp only [hfstat, hnode, ok_bind, reduceCtorEq, ne_eq, not_true_eq_false, if_false]
    rfl

theorem validate_refines {opened : OpenedWorktreeEntry}
    {opened' : GoalRouter.OpenedWorktreeEntry} (ho : OpenedAt s opened opened') :
    Refines env (validate opened)
      (GoalRouter.validateOpenedWorktreeEntry env.worktree opened') (fun _ _ s' => s' = s) s :=
  runFilesystemOperation_produces _ (validateOpenedWorktreeEntry_refines ho)

end Validating

section Comparing

variable {env : Surroundings} {s : Places} (hexdigest : HashAlgorithm → Bytes → Text)
  (algorithm : HashAlgorithm)

/-- An index entry with its opened entry. -/
def PairAt (s : Places) (pair : GitIndexEntry × OpenedWorktreeEntry)
    (pair' : GitIndexEntry × GoalRouter.OpenedWorktreeEntry) : Prop :=
  pair.1 = pair'.1 ∧ OpenedAt s pair.2 pair'.2

/-- The paths found dirty so far, and the entries left for hashing. -/
def StateAt (s : Places) (state : Finset RelativePath × List (GitIndexEntry × OpenedWorktreeEntry))
    (state' : Finset RelativePath × List (GitIndexEntry × GoalRouter.OpenedWorktreeEntry)) : Prop :=
  state.1 = state'.1 ∧ List.Forall₂ (PairAt s) state.2 state'.2

theorem compareOpened_refines
    {state : Finset RelativePath × List (GitIndexEntry × OpenedWorktreeEntry)}
    {state' : Finset RelativePath × List (GitIndexEntry × GoalRouter.OpenedWorktreeEntry)}
    {pair : GitIndexEntry × OpenedWorktreeEntry}
    {pair' : GitIndexEntry × GoalRouter.OpenedWorktreeEntry}
    (hs : StateAt s state state') (hp : PairAt s pair pair') :
    Refines env (compareOpened hexdigest algorithm state pair)
      (GoalRouter.compareOpened env.worktree hexdigest algorithm state' pair')
      (fun state state' s' => StateAt s state state' ∧ s' = s) s := by
  obtain ⟨dirty, regular⟩ := state
  obtain ⟨dirty', regular'⟩ := state'
  obtain ⟨entry, opened⟩ := pair
  obtain ⟨entry', opened'⟩ := pair'
  obtain ⟨rfl, hregular⟩ := hs
  obtain ⟨rfl, ho⟩ := hp
  dsimp only at hregular ho
  rw [compareOpened, GoalRouter.compareOpened]
  dsimp only
  rw [ho.kind, ho.mode, ho.symlinkContent, ho.fingerprint]
  split
  · apply (validate_refines ho).bind
    rintro _ _ s' rfl
    exact Prog.Refines.pure ⟨⟨rfl, hregular⟩, rfl⟩
  · cases hc : opened'.symlinkContent with
    | some content =>
      apply (validate_refines ho).bind
      rintro _ _ s' rfl
      exact Prog.Refines.pure ⟨⟨rfl, hregular⟩, rfl⟩
    | none =>
      dsimp only
      split
      · exact fail_produces _
      · rename_i hd
        rw [ho.descriptor_eq_none] at hd
        rw [if_neg hd]
        exact Prog.Refines.pure ⟨⟨rfl, List.rel_append hregular (.cons ⟨rfl, ho⟩ .nil)⟩, rfl⟩

/-- A request for the file that is open at a descriptor. -/
def RequestAt (s : Places) (request : BlobHashRequest) (request' : GoalRouter.BlobHashRequest) :
    Prop :=
  s request.descriptor = some request'.descriptor ∧ request.size = request'.size

/-- Requests for open descriptors are requests for what these are of. -/
theorem openRequests_places {s : Places} {requests : List BlobHashRequest}
    (h : ∀ request ∈ requests, (s request.descriptor).isSome = true) :
    List.Forall₂ (RequestAt s) requests
      (requests.map fun request => ⟨(s request.descriptor).getD [], request.size⟩) := by
  apply List.forall₂_map_right_iff.2
  apply List.forall₂_same.2
  intro request hm
  obtain ⟨p, hp⟩ := Option.isSome_iff_exists.1 (h request hm)
  simp only [RequestAt, hp, Option.getD_some, and_self]

theorem requestAt_unique {request : BlobHashRequest} {a b : GoalRouter.BlobHashRequest}
    (ha : RequestAt s request a) (hb : RequestAt s request b) : a = b := by
  obtain ⟨p, n⟩ := a
  obtain ⟨q, m⟩ := b
  obtain ⟨hp, rfl⟩ := ha
  obtain ⟨hq, rfl⟩ := hb
  rw [hp] at hq
  cases hq
  rfl

theorem hashRequest_at {opened : OpenedWorktreeEntry} {opened' : GoalRouter.OpenedWorktreeEntry}
    (ho : OpenedAt s opened opened') :
    Option.Rel (RequestAt s) opened.hashRequest? opened'.hashRequest? := by
  rw [OpenedWorktreeEntry.hashRequest?, GoalRouter.OpenedWorktreeEntry.hashRequest?, ho.fingerprint]
  cases hd : opened.descriptor with
  | none =>
    rw [ho.descriptor_none hd]
    exact .none
  | some descriptor =>
    obtain ⟨p, hp, hplace⟩ := ho.descriptor_some hd
    rw [hp]
    cases opened'.fingerprint with
    | none => exact .none
    | some fingerprint => exact .some ⟨hplace, rfl⟩

theorem hashRequests_at {pairs : List (GitIndexEntry × OpenedWorktreeEntry)}
    {pairs' : List (GitIndexEntry × GoalRouter.OpenedWorktreeEntry)}
    (h : List.Forall₂ (PairAt s) pairs pairs') :
    List.Forall₂ (RequestAt s) (pairs.filterMap fun pair => pair.2.hashRequest?)
      (pairs'.filterMap fun pair => pair.2.hashRequest?) := by
  induction h with
  | nil => exact .nil
  | @cons pair pair' pairs pairs' hp _ ih =>
    have hrequest := hashRequest_at hp.2
    rw [List.filterMap_cons, List.filterMap_cons]
    generalize pair.2.hashRequest? = request at hrequest
    generalize pair'.2.hashRequest? = request' at hrequest
    cases hrequest with
    | none => exact ih
    | some hr => exact .cons hr ih

theorem hashDescriptors_produces {requests : List BlobHashRequest}
    {requests' : List GoalRouter.BlobHashRequest}
    (hr : List.Forall₂ (RequestAt s) requests requests') :
    Produces env (invoke (.hashDescriptors requests algorithm))
      (fun digests s' => env.hasher requests' algorithm = .ok digests ∧ s' = s) s := by
  apply Prog.Produces.invoke
  intro digests s' hn
  cases hn with
  | hashed hr' hh =>
    have hunique : Relator.RightUnique (RequestAt s) := fun _ _ _ => requestAt_unique
    rw [List.right_unique_forall₂' hunique hr hr']
    exact ⟨hh, rfl⟩

theorem zip_at {pairs : List (GitIndexEntry × OpenedWorktreeEntry)}
    {pairs' : List (GitIndexEntry × GoalRouter.OpenedWorktreeEntry)}
    (h : List.Forall₂ (PairAt s) pairs pairs') (digests : List Text) :
    List.Forall₂ (fun hashed hashed' => PairAt s hashed.1 hashed'.1 ∧ hashed.2 = hashed'.2)
      (pairs.zip digests) (pairs'.zip digests) := by
  induction h generalizing digests with
  | nil => exact .nil
  | cons hp _ ih =>
    cases digests with
    | nil => exact .nil
    | cons digest digests => exact .cons ⟨hp, rfl⟩ (ih digests)

theorem compareDigest_refines (dirty : Finset RelativePath)
    {hashed : (GitIndexEntry × OpenedWorktreeEntry) × Text}
    {hashed' : (GitIndexEntry × GoalRouter.OpenedWorktreeEntry) × Text}
    (hp : PairAt s hashed.1 hashed'.1) (hd : hashed.2 = hashed'.2) :
    Refines env (compareDigest dirty hashed)
      (GoalRouter.compareDigest env.worktree dirty hashed')
      (fun dirty dirty' s' => dirty = dirty' ∧ s' = s) s := by
  obtain ⟨⟨entry, opened⟩, digest⟩ := hashed
  obtain ⟨⟨entry', opened'⟩, digest'⟩ := hashed'
  obtain ⟨rfl, ho⟩ := hp
  cases hd
  apply (validate_refines ho).bind
  rintro _ _ s' rfl
  exact Prog.Refines.pure ⟨rfl, rfl⟩

/-- What `compareWorktreeBatch` does with the entries it has opened. -/
def compareOpenedBatch (w : Worktree) (hasher : BlobHasher)
    (openedEntries : List (GitIndexEntry × GoalRouter.OpenedWorktreeEntry)) :
    Except PyError (Finset RelativePath) := do
  let (dirty, regularEntries) ←
    openedEntries.foldlM (GoalRouter.compareOpened w hexdigest algorithm) (∅, [])
  if regularEntries = [] then return dirty
  let digests ← hasher (regularEntries.filterMap fun pair => pair.2.hashRequest?) algorithm
  if digests.length ≠ regularEntries.length then
    throw (repositoryError "Tracked worktree hashing returned wrong batch size")
  (regularEntries.zip digests).foldlM (GoalRouter.compareDigest w) dirty

theorem compareBatch_refines {openedEntries : List (GitIndexEntry × OpenedWorktreeEntry)}
    {openedEntries' : List (GitIndexEntry × GoalRouter.OpenedWorktreeEntry)}
    (h : List.Forall₂ (PairAt s) openedEntries openedEntries') :
    Refines env (compareBatch hexdigest algorithm openedEntries)
      (compareOpenedBatch hexdigest algorithm env.worktree env.hasher openedEntries')
      (fun dirty dirty' s' => dirty = dirty' ∧ s' = s) s := by
  rw [compareBatch, compareOpenedBatch]
  have hfold : Refines env (openedEntries.foldlM (compareOpened hexdigest algorithm) (∅, []))
      (openedEntries'.foldlM (GoalRouter.compareOpened env.worktree hexdigest algorithm) (∅, []))
      (fun state state' s' => StateAt s state state' ∧ s' = s) s := by
    apply Prog.Refines.foldlM (I := fun s' => s' = s) _ h ⟨rfl, .nil⟩ rfl
    rintro state state' pair pair' s' hs hp rfl
    exact compareOpened_refines hexdigest algorithm hs hp
  apply hfold.bind
  rintro ⟨dirty, regular⟩ ⟨_, regular'⟩ s' ⟨⟨rfl, hregular⟩, rfl⟩
  dsimp only
  have hrequests := hashRequests_at hregular
  have hzip := zip_at hregular
  have hlength := hregular.length_eq
  cases regular with
  | nil =>
    cases hregular
    exact Prog.Refines.pure ⟨rfl, rfl⟩
  | cons pair regular =>
    cases hregular with
    | cons hp hregular =>
      have hsome : ¬(pair :: regular).isEmpty = true := Bool.false_ne_true
      rw [if_neg hsome, if_neg (List.cons_ne_nil _ _)]
      apply Prog.Refines.after (hashDescriptors_produces algorithm hrequests)
      rintro (digests : List Text) s' ⟨hh, rfl⟩
      rw [hh, ok_bind, hlength]
      split
      · exact fail_produces _
      · apply Prog.Refines.foldlM (I := fun s'' => s'' = s') _ (hzip digests) rfl rfl
        rintro dirty _ hashed hashed' s'' rfl ⟨hp, hd⟩ rfl
        exact compareDigest_refines dirty hp hd

/-- The entries that are opened over `opened`, whose descriptors were all free. -/
structure EntriesOpened (s : Places) (entries : List GitIndexEntry)
    (opened : List (GitIndexEntry × OpenedWorktreeEntry))
    (opened' : List (GitIndexEntry × GoalRouter.OpenedWorktreeEntry)) (s' : Places) : Prop where
  pairs : List.Forall₂ (PairAt s') opened opened'
  keeps : Keeps s s'
  free : ∀ pair ∈ opened, ∀ descriptor ∈ pair.2.ownedDescriptors, s descriptor = none

theorem openEntries_refines {root : Nat} {p : Descriptor} (hr : s root = some p)
    (entries : List GitIndexEntry) (l : List (GitIndexEntry × OpenedWorktreeEntry)) :
    TryBlock.Refines (Answers env) (openEntries root entries)
      (entries.mapM fun entry => do
        return (entry, ← GoalRouter.openWorktreeEntry env.worktree p entry.path entry.mode))
      (fun _ opened' l' s' => ∃ opened, l' = l ++ opened ∧
        EntriesOpened s entries opened opened' s') l s := by
  induction entries generalizing s l with
  | nil => exact TryBlock.Refines.pure ⟨[], (List.append_nil l).symm, .nil, .refl s, by simp⟩
  | cons entry entries ih =>
    rw [openEntries, List.mapM_cons]
    have hentry : Refines env (openWorktreeEntry root entry.path entry.mode)
        (GoalRouter.openWorktreeEntry env.worktree p entry.path entry.mode)
        (fun opened opened' s' => Opened s [] opened opened' opened.ownedDescriptors s') s :=
      openWorktreeEntry_refines hr entry
    have hopen := runFilesystemOperation_produces .openWorktreeEntry hentry
    apply TryBlock.Refines.collect hopen
    rintro opened s' ⟨opened', hx, ho⟩
    rw [hx]
    apply Prog.Produces.mono (ih (ho.keeps _ _ hr) (l ++ [(entry, opened)]))
    intro out s'' hout a ha
    obtain ⟨rest', hrest, rest, hl, hs⟩ := hout a ha
    refine ⟨(entry, opened') :: rest', ?_, (entry, opened) :: rest, ?_, ?_⟩
    · rw [hrest]
      rfl
    · rw [hl, List.append_assoc, List.singleton_append]
    · refine ⟨.cons ⟨rfl, ho.openedAt.keeps hs.keeps⟩ hs.pairs, ho.keeps.trans hs.keeps, ?_⟩
      intro pair hm descriptor hd
      rcases List.mem_cons.1 hm with rfl | hm
      · exact (ho.free descriptor hd).resolve_left List.not_mem_nil
      · exact ho.keeps.free (hs.free pair hm descriptor hd)

end Comparing

section Closing

variable {env : Surroundings} {s : Places}

/-- Nothing is closed but these descriptors. -/
def LeavesOpen (descriptors : List Nat) (s s' : Places) : Prop :=
  ∀ descriptor, descriptor ∉ descriptors → s' descriptor = s descriptor

theorem close_produces (descriptor : Nat) :
    (invoke (.close descriptor)).Safe (Answers env) (fun _ => True)
      (fun _ => LeavesOpen [descriptor] s) (fun _ => LeavesOpen [descriptor] s) s := by
  have hclosed : LeavesOpen [descriptor] s (Function.update s descriptor none) :=
    fun other ho => Function.update_of_ne (List.ne_of_not_mem_cons ho) ..
  apply Prog.Safe.invoke
  intro r s' hn
  refine ⟨trivial, ?_⟩
  cases hn with
  | closed =>
    cases r with
    | ok v => exact hclosed
    | error e => exact hclosed
  | failed => exact fun _ _ => rfl

theorem closeEach_produces (firstError : Option Raised) (descriptors : List Nat) :
    Produces env (closeEach firstError descriptors) (fun _ => LeavesOpen descriptors s) s := by
  induction descriptors generalizing firstError s with
  | nil => exact fun _ _ => rfl
  | cons descriptor descriptors ih =>
    have hthen {s' s'' : Places} (h : LeavesOpen [descriptor] s s')
        (h' : LeavesOpen descriptors s' s'') : LeavesOpen (descriptor :: descriptors) s s'' := by
      intro other ho
      rw [List.mem_cons, not_or] at ho
      rw [h' other ho.2, h other (by simpa using ho.1)]
    apply (close_produces descriptor).attempt_bind
    intro r s' hr
    cases r with
    | ok v => exact Prog.Produces.mono (ih firstError) fun _ _ h => hthen hr h
    | error e =>
      dsimp only
      split
      · exact Prog.Produces.mono (ih _) fun _ _ h => hthen hr h
      · exact Prog.Produces.throw e

theorem closeOpened_produces (firstError : Option Raised)
    (opened : List (GitIndexEntry × OpenedWorktreeEntry)) :
    Produces env (closeOpened firstError opened)
      (fun _ => LeavesOpen (opened.flatMap fun pair => pair.2.ownedDescriptors) s) s := by
  induction opened generalizing firstError s with
  | nil => exact fun _ _ => rfl
  | cons pair opened ih =>
    rw [closeOpened]
    apply (closeEach_produces none pair.2.ownedDescriptors.reverse).bind
    intro error s' hs
    apply (ih _).mono
    intro _ s'' hs' descriptor hd
    rw [List.flatMap_cons, List.mem_append, not_or] at hd
    rw [hs' descriptor hd.2, hs descriptor (fun hm => hd.1 (List.mem_reverse.1 hm))]

end Closing

section Collecting

variable {env : Surroundings} {s : Places} {root : Nat} {p : Descriptor}
  (hexdigest : HashAlgorithm → Bytes → Text)

theorem compareWorktreeBatch_eq (w : Worktree) (p : Descriptor) (entries : List GitIndexEntry)
    (algorithm : HashAlgorithm) (hasher : BlobHasher) :
    GoalRouter.compareWorktreeBatch w hexdigest p entries algorithm hasher = (do
      let openedEntries ← entries.mapM fun entry => do
        return (entry, ← GoalRouter.openWorktreeEntry w p entry.path entry.mode)
      compareOpenedBatch hexdigest algorithm w hasher openedEntries) :=
  rfl

/-- A batch of the worktree, after which the root is open as before. -/
theorem compareWorktreeBatch_refines (hr : s root = some p) (entries : List GitIndexEntry)
    (algorithm : HashAlgorithm) :
    Refines env (compareWorktreeBatch hexdigest root entries algorithm)
      (GoalRouter.compareWorktreeBatch env.worktree hexdigest p entries algorithm env.hasher)
      (fun dirty dirty' s' => dirty = dirty' ∧ s' root = some p) s := by
  have hbody : TryBlock.Refines (Answers env) (do
        openEntries root entries
        let openedEntries ← TryBlock.collected
        TryBlock.perform (compareBatch hexdigest algorithm openedEntries))
      (GoalRouter.compareWorktreeBatch env.worktree hexdigest p entries algorithm env.hasher)
      (fun dirty dirty' opened s' => dirty = dirty' ∧ s' root = some p ∧
        root ∉ opened.flatMap fun pair => pair.2.ownedDescriptors) [] s := by
    rw [compareWorktreeBatch_eq]
    apply (openEntries_refines hr entries []).bind
    rintro _ opened' _ s' ⟨opened, rfl, ho⟩
    apply TryBlock.Refines.collected
    apply (TryBlock.Refines.last (compareBatch_refines hexdigest algorithm ho.pairs)).mono
    rintro dirty _ _ s'' ⟨rfl, rfl, rfl⟩
    refine ⟨rfl, ho.keeps _ _ hr, fun hm => ?_⟩
    obtain ⟨pair, hp, hd⟩ := List.mem_flatMap.1 hm
    rw [ho.free pair hp root hd] at hr
    cases hr
  apply Prog.Produces.bind hbody
  rintro ⟨outcome, opened⟩ s' hout
  apply (closeOpened_produces none opened.reverse).bind
  intro cleanupError s'' hs
  cases outcome with
  | ok dirty =>
    obtain ⟨_, hx, rfl, hroot, hm⟩ := hout dirty rfl
    cases cleanupError with
    | none =>
      refine ⟨dirty, hx, rfl, ?_⟩
      rw [hs root (by simpa using hm)]
      exact hroot
    | some e => exact fail_produces _
  | error e =>
    cases cleanupError with
    | none => exact Prog.Produces.throw _
    | some e' => exact Prog.Produces.throw _

theorem ofExcept_refines {x : Except PyError α} :
    Refines env (ofExcept x) x (fun a a' s' => a = a' ∧ s' = s) s := by
  cases x with
  | ok a => exact Prog.Refines.pure ⟨rfl, rfl⟩
  | error e => exact Prog.Refines.throw _

/-- However descriptors are numbered and whatever fails, the dirty paths that are returned are those
of the places. -/
theorem collectDirtyPaths_refines (hr : s root = some p) (index : List GitIndexEntry)
    (head : GitTree) (untracked : List RelativePath) :
    Refines env (collectDirtyPaths hexdigest root index head.entries untracked)
      (GoalRouter.collectDirtyPaths env.worktree hexdigest p index head untracked env.hasher)
      (fun paths paths' _ => paths = paths') s := by
  rw [collectDirtyPaths, GoalRouter.collectDirtyPaths, collectDirtyPathsIn]
  apply ofExcept_refines.bind
  rintro _ _ s' ⟨rfl, rfl⟩
  apply ofExcept_refines.bind
  rintro ⟨dirty, entries⟩ _ s' ⟨rfl, rfl⟩
  dsimp only
  apply Prog.Refines.bind (S := fun dirty dirty' _ => dirty = dirty')
  · apply Prog.Refines.mono (S := fun dirty dirty' s' => dirty = dirty' ∧ s' root = some p)
    · apply Prog.Refines.foldlM (A := Eq) (I := fun s' : Places => s' root = some p) _
        (List.forall₂_refl _) rfl hr
      rintro dirty _ batch _ s' rfl rfl hr
      apply (compareWorktreeBatch_refines hexdigest hr batch _).bind
      rintro compared _ s' ⟨rfl, hr⟩
      exact Prog.Refines.pure ⟨rfl, hr⟩
    · exact fun _ _ _ h => h.1
  · rintro dirty _ s' rfl
    exact Prog.Refines.pure rfl

end Collecting

end LocalRepositoryInspector

section Exactness

variable {index : List GitIndexEntry} {head : GitTree} {w : Worktree} {hasher : BlobHasher}
  {hexdigest : HashAlgorithm → Bytes → Text}

theorem oneLength_of_consistent
    (h : requireConsistentObjectFormat ((index.map (·.objectId.length)).toFinset ∪
      (head.entries.map (·.objectId.length)).toFinset) = .ok ()) : OneLength index head := by
  rw [requireConsistentObjectFormat] at h
  split at h
  · cases h
  · rename_i hcard
    have hindex (entry : GitIndexEntry) (hm : entry ∈ index) :
        entry.objectId.length ∈ (index.map (·.objectId.length)).toFinset ∪
          (head.entries.map (·.objectId.length)).toFinset :=
      Finset.mem_union_left _ (List.mem_toFinset.2 (List.mem_map_of_mem hm))
    have hhead (entry : GitTreeEntry) (hm : entry ∈ head.entries) :
        entry.objectId.length ∈ (index.map (·.objectId.length)).toFinset ∪
          (head.entries.map (·.objectId.length)).toFinset :=
      Finset.mem_union_right _ (List.mem_toFinset.2 (List.mem_map_of_mem hm))
    generalize (index.map (·.objectId.length)).toFinset ∪
      (head.entries.map (·.objectId.length)).toFinset = lengths at hcard hindex hhead
    have hone := Finset.card_le_one.1 (Nat.not_lt.1 hcard)
    obtain rfl | ⟨n, hn⟩ := lengths.eq_empty_or_nonempty
    · exact ⟨0, fun e hm => absurd (hindex e hm) (Finset.notMem_empty _),
        fun e hm => absurd (hhead e hm) (Finset.notMem_empty _)⟩
    · exact ⟨n, fun e hm => hone _ (hindex e hm) _ hn, fun e hm => hone _ (hhead e hm) _ hn⟩

theorem classifyPath_ok {headByPath : Dict RelativePath GitTreeEntry}
    {state state' : Finset RelativePath × List GitIndexEntry} {path : RelativePath}
    (h : classifyPath (Dict.groupBy GitIndexEntry.path index) headByPath state path = .ok state') :
    ((candidates index path).map GitIndexEntry.stage).Nodup ∧
      (0 ∈ (candidates index path).map GitIndexEntry.stage →
        (candidates index path).length = 1) := by
  have hc : ((Dict.groupBy GitIndexEntry.path index).get? path).getD [] = candidates index path :=
    Dict.get?_groupBy GitIndexEntry.path index path
  rw [classifyPath] at h
  dsimp only at h
  rw [hc] at h
  split at h
  · cases h
  · rename_i hok
    rw [not_or, not_and, not_not, not_not] at hok
    refine ⟨?_, fun hm => ?_⟩
    · exact Multiset.coe_nodup.1 (Multiset.toFinset_card_eq_card_iff_nodup.1 hok.1.symm)
    · rw [← List.length_map (f := GitIndexEntry.stage)]
      exact hok.2 hm

theorem foldlM_ok {f : β → α → Except PyError β} {l : List α} {b c : β}
    (h : l.foldlM f b = .ok c) {a : α} (ha : a ∈ l) : ∃ b' c', f b' a = .ok c' := by
  induction l generalizing b with
  | nil => cases ha
  | cons x l ih =>
    rw [List.foldlM_cons] at h
    cases hx : f b x with
    | error e =>
      rw [hx] at h
      cases h
    | ok b' =>
      rw [hx] at h
      rcases List.mem_cons.1 ha with rfl | ha
      · exact ⟨b, b', hx⟩
      · exact ih h ha

theorem noConflicts_of_classified {headByPath : Dict RelativePath GitTreeEntry}
    {paths : List RelativePath} {state state' : Finset RelativePath × List GitIndexEntry}
    (hp : ∀ entry ∈ index, entry.path ∈ paths)
    (h : paths.foldlM (classifyPath (Dict.groupBy GitIndexEntry.path index) headByPath) state =
      .ok state') : NoConflicts index := by
  intro path
  cases hc : candidates index path with
  | nil => exact ⟨List.nodup_nil, fun hm => absurd hm List.not_mem_nil⟩
  | cons entry rest =>
    have hm : entry ∈ candidates index path := by rw [hc]; exact List.mem_cons_self
    obtain ⟨hindex, hpath⟩ := List.mem_filter.1 hm
    have hmem := hp entry hindex
    rw [of_decide_eq_true hpath] at hmem
    obtain ⟨_, _, hclass⟩ := foldlM_ok h hmem
    rw [← hc]
    exact classifyPath_ok hclass

theorem exactlyDirty_of_ok {root : Descriptor} {untracked paths : List RelativePath}
    (hh : hasher.Hashes w hexdigest)
    (h : collectDirtyPaths w hexdigest root index head untracked hasher = .ok paths) :
    ExactlyDirty w hexdigest root index head untracked paths := by
  have hparts := h
  rw [collectDirtyPaths, collectDirtyPathsIn] at hparts
  dsimp only at hparts
  cases hc : requireConsistentObjectFormat ((index.map (·.objectId.length)).toFinset ∪
      (head.entries.map (·.objectId.length)).toFinset) with
  | error e =>
    rw [hc] at hparts
    cases hparts
  | ok _ =>
    rw [hc, ok_bind] at hparts
    obtain ⟨state, hclass, -⟩ := bind_ok hparts
    have hstages : NoConflicts index := by
      apply noConflicts_of_classified _ hclass
      intro entry hm
      rw [Finset.mem_sort, Finset.mem_union, List.mem_toFinset]
      exact .inl (Dict.mem_keys_groupBy.2 ⟨entry, hm, rfl⟩)
    obtain ⟨e, -, he⟩ | ⟨-, dirty, he, hiff⟩ := collectDirtyPathsIn_spec root untracked
      blobHashBatchMax_pos le_rfl (oneLength_of_consistent hc) hstages hh
    · rw [collectDirtyPaths, he] at h
      cases h
    · rw [collectDirtyPaths, he] at h
      cases h
      exact exactlyDirty_sort hiff

theorem parseTreeRecord_nodup {parsed parsed' : List GitTreeEntry × Finset Nat} {record : Text}
    (h : parseTreeRecord parsed record = .ok parsed')
    (hn : (parsed.1.map GitTreeEntry.path).Nodup) : (parsed'.1.map GitTreeEntry.path).Nodup := by
  obtain ⟨entries, lengths⟩ := parsed
  rw [parseTreeRecord] at h
  dsimp only at h
  split at h
  · split at h
    · cases h
    · rename_i mode _
      generalize (if mode = .gitlink then text "commit" else text "blob") = expected at h
      split at h
      · cases h
      · obtain ⟨_, -, h⟩ := bind_ok h
        obtain ⟨path, -, h⟩ := bind_ok h
        split at h
        · cases h
        · rename_i hnew
          cases h
          rw [List.map_append, List.map_cons, List.map_nil, List.nodup_append_comm]
          exact List.nodup_cons.2 ⟨hnew, hn⟩
  · cases h

theorem parseTreeEntries_nodup {stdout : Text} {entries : List GitTreeEntry}
    (h : parseTreeEntries stdout = .ok entries) : (entries.map GitTreeEntry.path).Nodup := by
  rw [parseTreeEntries] at h
  obtain ⟨records, -, h⟩ := bind_ok h
  obtain ⟨⟨parsed, lengths⟩, hfold, h⟩ := bind_ok h
  obtain ⟨_, -, h⟩ := bind_ok h
  cases h
  have hrun {parsed parsed' : List GitTreeEntry × Finset Nat} {records : List Text}
      (h : records.foldlM parseTreeRecord parsed = .ok parsed')
      (hn : (parsed.1.map GitTreeEntry.path).Nodup) :
      (parsed'.1.map GitTreeEntry.path).Nodup := by
    induction records generalizing parsed with
    | nil =>
      cases h
      exact hn
    | cons record records ih =>
      rw [List.foldlM_cons] at h
      obtain ⟨next, hstep, h⟩ := bind_ok h
      exact ih h (parseTreeRecord_nodup hstep hn)
  exact hrun hfold List.nodup_nil

end Exactness

namespace LocalRepositoryInspector

section Inspecting

variable {env : Surroundings} {s : Places} {hexdigest : HashAlgorithm → Bytes → Text}

/-- What Git says of the repository; no tree is there for a branch that has no commit yet. -/
structure GitEvidence (env : Surroundings) (pinnedPrefix : List Text)
    (index : List GitIndexEntry) (head : GitTree) (untracked : List RelativePath) : Prop where
  index : parseIndexEntries (env.git (pinnedPrefix ++ indexArguments)).stdout = .ok index
  head : ((env.git (pinnedPrefix ++ treeArguments)).returncode = 0 ∧
      parseTreeEntries (env.git (pinnedPrefix ++ treeArguments)).stdout = .ok head.entries) ∨
    ((env.git (pinnedPrefix ++ treeArguments)).returncode = 128 ∧ head.entries = [])
  untracked : parseNulPaths (env.git (pinnedPrefix ++ untrackedArguments)).stdout
    (text "untracked") = .ok untracked

/-- The dirty paths of a context are exactly those of the repository at `repositoryRoot`. -/
def ReportsDirty (env : Surroundings) (hexdigest : HashAlgorithm → Bytes → Text)
    (repositoryRoot : PurePath) (pinnedPrefix : List Text) (context : RepositoryContext) : Prop :=
  ∃ index head untracked paths, GitEvidence env pinnedPrefix index head untracked ∧
    context.dirtyPaths = paths.map (fun path => PurePath.ofText path.asPosix) ∧
    ExactlyDirty env.worktree hexdigest (env.place repositoryRoot) index head untracked paths

theorem closingOnError_produces {q : Inspection α} {Q : α → Places → Prop} (descriptor : Nat)
    (h : Produces env q Q s) : Produces env (closingOnError descriptor q) Q s := by
  apply h.attempt_bind
  · exact fun _ _ hq => hq
  · intro e s
    apply Prog.Produces.bind (.any _ _)
    exact fun _ _ _ => Prog.Produces.throw e

theorem openPath_produces (path : PurePath) (directory : Bool) :
    Produces env (invoke (.openPath path directory))
      (fun descriptor => OpensAt s descriptor (env.place path)) s := by
  apply Prog.Produces.invoke
  intro descriptor s' hn
  cases hn with
  | openPath hf => exact .update hf _

theorem stat_produces (path : PurePath) :
    Produces env (invoke (.stat path)) (fun _ s' => s' = s) s := by
  apply Prog.Produces.invoke
  intro fingerprint s' hn
  cases hn with
  | stat => rfl

theorem fstat_keeps (descriptor : Nat) :
    Produces env (invoke (.fstat descriptor)) (fun _ s' => s' = s) s := by
  apply Prog.Produces.invoke
  intro fingerprint s' hn
  cases hn with
  | fstat => rfl

theorem pinRequiredDirectory_produces (path : PurePath) :
    Produces env (pinRequiredDirectory path)
      (fun pin s' => ∃ descriptor, pin.descriptor = some descriptor ∧
        s' descriptor = some (env.place path)) s := by
  rw [pinRequiredDirectory]
  apply (openPath_produces path true).bind
  intro (descriptor : Nat) s' hopen
  apply closingOnError_produces
  apply (fstat_keeps descriptor).bind
  rintro (fingerprint : FileFingerprint) s' rfl
  apply (stat_produces path).bind
  rintro (current : FileFingerprint) s' rfl
  split
  · exact Prog.Produces.throw _
  · exact ⟨descriptor, rfl, hopen.place⟩

theorem pinOptionalRegularFile_produces (path : PurePath) :
    Produces env (pinOptionalRegularFile path) (fun _ s' => Keeps s s') s := by
  have hopen : Produces env (openIfPresent (.openPath path false)) (fun _ s' => Keeps s s') s := by
    apply Prog.Safe.attempt_bind (Q := fun _ s' => Keeps s s') (R := fun _ s' => s' = s)
    · intro r s' hn
      refine ⟨trivial, ?_⟩
      cases hn with
      | openPath hf => exact (OpensAt.update hf _).keeps
      | failed => rfl
    · intro r s' hr
      cases r with
      | ok descriptor => exact hr
      | error e =>
        dsimp only
        split
        · rw [hr]
          exact Keeps.refl s
        · trivial
  rw [pinOptionalRegularFile]
  apply hopen.bind
  intro (descriptor : Option Nat) s' hk
  cases descriptor with
  | none => exact hk
  | some descriptor =>
    apply closingOnError_produces
    apply (fstat_keeps descriptor).bind
    rintro (fingerprint : FileFingerprint) s' rfl
    apply (stat_produces path).bind
    rintro (current : FileFingerprint) s' rfl
    split
    · exact Prog.Produces.throw _
    · exact hk

theorem pinEvidence_produces (target repositoryRoot gitDirectory : PurePath) :
    Produces env (pinEvidence target repositoryRoot gitDirectory)
      (fun pins s' => ∃ descriptor, pins.1.descriptor = some descriptor ∧
        s' descriptor = some (env.place repositoryRoot)) s := by
  apply catching_produces _ fun _ _ => fail_produces _
  apply withTimeout_produces
  apply (runFilesystemOperation_produces _ (pinRequiredDirectory_produces repositoryRoot)).bind
  rintro rootPin s' ⟨descriptor, hd, hroot⟩
  apply (runFilesystemOperation_produces _ (pinOptionalRegularFile_produces _)).bind
  intro indexPin s'' hk
  exact ⟨descriptor, hd, hk _ _ hroot⟩

theorem requireGitCommand_produces (label : Text) (outcome : Except Raised CommandResult) :
    Produces env (requireGitCommand label outcome)
      (fun result s' => outcome = .ok result ∧ s' = s) s := by
  cases outcome with
  | error e => exact fail_produces _
  | ok result =>
    rw [requireGitCommand]
    split
    · exact fail_produces _
    · exact ⟨rfl, rfl⟩

theorem parseBranch_produces (stdout : Text) :
    Produces env (parseBranch stdout) (fun _ s' => s' = s) s := by
  rw [parseBranch]
  generalize (if stdout.getLast? = some newline then stdout.dropLast else stdout) = branch
  split
  · exact fail_produces _
  · exact rfl

theorem resolveHeadTree_produces (outcome : Except Raised CommandResult) (branch : Option Text)
    (pinnedPrefix : List Text) (cwd : PurePath) :
    Produces env (resolveHeadTree outcome branch pinnedPrefix cwd)
      (fun stdout s' => (∃ result, outcome = .ok result ∧ (result.returncode = 0 ∧
        stdout = result.stdout ∨ result.returncode = 128 ∧ stdout = [])) ∧ s' = s) s := by
  have hrun (argv : List Text) : Produces env (invoke (.runReadOnly argv cwd))
      (fun _ s' => s' = s) s := by
    apply Prog.Produces.invoke
    intro result s' hn
    cases hn with
    | runReadOnly => rfl
  cases outcome with
  | error e => exact fail_produces _
  | ok result =>
    unfold resolveHeadTree
    dsimp only
    split
    · rename_i hc
      exact ⟨⟨result, rfl, .inl ⟨hc, rfl⟩⟩, rfl⟩
    · cases branch with
      | none => exact fail_produces _
      | some branch =>
        dsimp only
        split
        · rename_i hc
          apply Prog.Produces.bind (Q := fun _ s' => s' = s)
          · apply catching_produces _ fun _ _ => fail_produces _
            apply catching_produces _ fun _ _ => fail_produces _
            exact withTimeout_produces (hrun _)
          · rintro (ref : CommandResult) s' rfl
            split
            · exact ⟨⟨result, rfl, .inr ⟨hc.1, rfl⟩⟩, rfl⟩
            · exact fail_produces _
        · exact fail_produces _

theorem readPinned_produces (target repositoryRoot : PurePath) (rootPin indexPin : PinnedPath)
    {dirtyPaths : Inspection (List RelativePath)} {P : List RelativePath → Prop}
    (h : Produces env dirtyPaths (fun paths _ => P paths) s) :
    Produces env (readPinned target repositoryRoot rootPin indexPin dirtyPaths)
      (fun read _ => P read.1) s := by
  apply catching_produces _ fun _ _ => fail_produces _
  apply catching_produces _ fun _ _ => fail_produces _
  apply withTimeout_produces
  apply h.bind
  intro paths s' hP
  apply Prog.Produces.bind (.any _ _)
  intro evidence _ _
  apply Prog.Produces.bind (.any _ _)
  intro _ _ _
  apply Prog.Produces.bind (.any _ _)
  exact fun _ _ _ => hP

/-- The outcomes of the captured commands, as far as they have one, are what Git prints. -/
def CapturedFrom (env : Surroundings) (pinnedPrefix : List Text)
    (outcomes : List (Except Raised CommandResult)) : Prop :=
  ∀ branch index tree untracked, outcomes = [branch, index, tree, untracked] →
    (∀ result, index = .ok result → result = env.git (pinnedPrefix ++ indexArguments)) ∧
    (∀ result, tree = .ok result → result = env.git (pinnedPrefix ++ treeArguments)) ∧
    ∀ result, untracked = .ok result → result = env.git (pinnedPrefix ++ untrackedArguments)

theorem captured_produces (target : PurePath) (pinnedPrefix : List Text) :
    Produces env (Subtype.val <$> invoke (.captureGitCommands
        ([branchArguments, indexArguments, treeArguments, untrackedArguments].map
          (pinnedPrefix ++ ·)) target))
      (fun outcomes s' => CapturedFrom env pinnedPrefix outcomes ∧ s' = s) s := by
  intro r s' hn
  refine ⟨trivial, ?_⟩
  cases hn with
  | captured hl ho =>
    refine ⟨?_, rfl⟩
    rintro branch index tree untracked rfl
    simp only [List.map_cons, List.map_nil, List.zip_cons_cons, List.zip_nil_right,
      List.forall_mem_cons] at ho
    exact ⟨ho.2.1, ho.2.2.1, ho.2.2.2.1⟩
  | failed => trivial

theorem ofExcept_produces (x : Except PyError α) :
    Produces env (ofExcept x) (fun a s' => x = .ok a ∧ s' = s) s := by
  cases x with
  | ok a => exact ⟨rfl, rfl⟩
  | error e => exact Prog.Produces.throw _

theorem gatherEvidence_produces (target repositoryRoot : PurePath) (pinnedPrefix : List Text)
    (rootPin indexPin : PinnedPath) (hh : env.hasher.Hashes env.worktree hexdigest)
    (hr : ∃ descriptor, rootPin.descriptor = some descriptor ∧
      s descriptor = some (env.place repositoryRoot)) :
    Produces env (gatherEvidence hexdigest target repositoryRoot pinnedPrefix rootPin indexPin)
      (fun context _ => ReportsDirty env hexdigest repositoryRoot pinnedPrefix context) s := by
  obtain ⟨root, hroot, hplace⟩ := hr
  rw [gatherEvidence]
  apply Prog.Produces.bind (Q := fun outcomes s' => CapturedFrom env pinnedPrefix outcomes ∧ s' = s)
  · apply catching_produces _ fun _ _ => fail_produces _
    exact withTimeout_produces (captured_produces target pinnedPrefix)
  rintro captured s' ⟨houtcomes, rfl⟩
  split
  · rename_i branchOutcome indexOutcome headOutcome untrackedOutcome
    obtain ⟨hindex, htree, huntracked⟩ := houtcomes _ _ _ _ rfl
    apply (requireGitCommand_produces _ branchOutcome).bind
    rintro branchResult s' ⟨-, rfl⟩
    apply (requireGitCommand_produces _ indexOutcome).bind
    rintro indexResult s' ⟨hi, rfl⟩
    apply (requireGitCommand_produces _ untrackedOutcome).bind
    rintro untrackedResult s' ⟨hu, rfl⟩
    apply (parseBranch_produces _).bind
    rintro branch s' rfl
    apply (resolveHeadTree_produces headOutcome branch pinnedPrefix target).bind
    rintro headStdout s' ⟨⟨headResult, hr, hhead⟩, rfl⟩
    apply (ofExcept_produces _).bind
    rintro index s' ⟨hparsed, rfl⟩
    apply (ofExcept_produces _).bind
    rintro headEntries s' ⟨hentries, rfl⟩
    apply (ofExcept_produces _).bind
    rintro untracked s' ⟨hpaths, rfl⟩
    rw [hindex _ hi] at hparsed
    rw [huntracked _ hu] at hpaths
    have hnodup := parseTreeEntries_nodup hentries
    have hevidence : GitEvidence env pinnedPrefix index ⟨headEntries, hnodup⟩ untracked := by
      refine ⟨hparsed, ?_, hpaths⟩
      rw [← htree _ hr]
      obtain ⟨hc, rfl⟩ | ⟨hc, rfl⟩ := hhead
      · exact .inl ⟨hc, hentries⟩
      · cases hentries
        exact .inr ⟨hc, rfl⟩
    rw [hroot]
    dsimp only
    apply (readPinned_produces target repositoryRoot rootPin indexPin
      (collectDirtyPaths_refines hexdigest hplace index ⟨headEntries, hnodup⟩ untracked)).bind
    rintro ⟨paths, evidence⟩ s' ⟨_, hcollected, rfl⟩
    exact ⟨index, ⟨headEntries, hnodup⟩, untracked, paths, hevidence, rfl,
      exactlyDirty_of_ok hh hcollected⟩
  · exact Prog.Produces.throw _

/-- The arguments of every Git command after the pins are set. -/
def pinnedArguments (candidateRoot repositoryRoot gitDirectory : PurePath) : List Text :=
  gitSafePrefix ++ [text "-c", text "safe.directory=" ++ candidateRoot.text] ++
    [text "--git-dir=" ++ gitDirectory.text, text "--work-tree=" ++ repositoryRoot.text]

theorem inspectPinned_produces (target repositoryRoot gitDirectory : PurePath)
    (pinnedPrefix : List Text) (hh : env.hasher.Hashes env.worktree hexdigest) :
    Produces env (inspectPinned hexdigest target repositoryRoot gitDirectory pinnedPrefix)
      (fun context _ => ReportsDirty env hexdigest repositoryRoot pinnedPrefix context) s := by
  apply (pinEvidence_produces target repositoryRoot gitDirectory).bind
  rintro ⟨rootPin, indexPin⟩ s' hr
  apply (gatherEvidence_produces target repositoryRoot pinnedPrefix rootPin indexPin hh
    hr).attempt_bind
  · intro context s' hreports
    apply Prog.Produces.bind (.any _ _)
    intro cleanupError s' _
    cases cleanupError with
    | none => exact hreports
    | some e => exact fail_produces _
  · intro e s'
    apply Prog.Produces.bind (.any _ _)
    intro cleanupError s' _
    cases cleanupError with
    | none => exact Prog.Produces.throw _
    | some e => exact Prog.Produces.throw _

/-- However descriptors are numbered, whatever calls fail and wherever a cancellation arrives, an
inspection of a Git repository returns only a context that reports exactly the dirty paths. -/
theorem inspect_reports_dirty (env : Surroundings) (hexdigest : HashAlgorithm → Bytes → Text)
    (projectPath : PurePath) {s s' : Places} {context : RepositoryContext}
    (hh : env.hasher.Hashes env.worktree hexdigest)
    (hs : Prog.Steps (Answers env) (inspect hexdigest projectPath) s (.pure context) s')
    (hg : context.isGitWorktree = true) :
    ∃ candidateRoot repositoryRoot gitDirectory, ReportsDirty env hexdigest repositoryRoot
      (pinnedArguments candidateRoot repositoryRoot gitDirectory) context := by
  have hinspect : Produces env (inspect hexdigest projectPath) (fun context _ =>
      context.isGitWorktree = true → ∃ candidateRoot repositoryRoot gitDirectory,
        ReportsDirty env hexdigest repositoryRoot
          (pinnedArguments candidateRoot repositoryRoot gitDirectory) context) s := by
    rw [inspect]
    split
    · exact fail_produces _
    · apply Prog.Produces.bind (.any _ _)
      intro target _ _
      apply Prog.Produces.bind (.any _ _)
      rintro ⟨⟨candidateRoot, gitMetadata⟩, evidence⟩ _ _
      dsimp only
      split
      · exact fun hg => by cases hg
      · apply Prog.Produces.bind (.any _ _)
        intro (discovery : CommandResult) _ _
        split
        · exact fail_produces _
        · apply Prog.Produces.bind (.any _ _)
          rintro ⟨repositoryRoot, gitDirectory⟩ _ _
          apply (inspectPinned_produces target repositoryRoot gitDirectory _ hh).mono
          intro context _ hreports _
          exact ⟨candidateRoot, repositoryRoot, gitDirectory, hreports⟩
  exact hinspect.returns hs hg

end Inspecting

section Sample

/-- A repository that holds an empty file, and has its index beside it. -/
def sampleWorktree : Worktree := fun place =>
  if place = [] ∨ place = [text ".git"] then
    some ⟨⟨0, 1, 0o040755, 0, 0, 0⟩, [], fun h => absurd h (by decide)⟩
  else if place = [text "a"] ∨ place = [text ".git", text "index"] then
    some ⟨⟨0, 2, 0o100644, 0, 0, 0⟩, [], fun _ => rfl⟩
  else none

/-- The blob id of every file of the sample. -/
def sampleHexdigest (_ : HashAlgorithm) (_ : Bytes) : Text := emptyBlobId

def samplePrints (argv : List Text) : Text :=
  if text "--show-current" ∈ argv then text "main\n"
  else if text "--stage" ∈ argv then text "H 100644 " ++ emptyBlobId ++ text " 0\ta" ++ [0]
  else if text "HEAD" ∈ argv then text "100644 blob " ++ emptyBlobId ++ text "\ta" ++ [0]
  else text "b" ++ [0]

def sampleSurroundings : Surroundings where
  worktree := sampleWorktree
  place path := (pathParts path.text).tail
  hasher requests algorithm := .ok (requests.map fun request =>
    hashGitBlob sampleHexdigest algorithm (request.blob sampleWorktree))
  git argv := ⟨0, samplePrints argv, []⟩

/-- The first descriptors that are free. -/
def freeDescriptor (s : Places) : Option Nat :=
  (List.range 16).find? fun descriptor => s descriptor = none

/-- A descriptor that is opened in the sample. -/
def sampleOpen (s : Places) (place : Except PyError Descriptor) :
    Option (Except Raised Nat × Places) :=
  match freeDescriptor s, place with
  | some descriptor, .ok place => some (.ok descriptor, Function.update s descriptor (some place))
  | some _, .error e => some (.error (raised ⟨.other (text "FileNotFoundError"), e.message⟩), s)
  | none, _ => none

/-- A wait that nothing interrupts. -/
def undisturbedWait : List Interruption := []

theorem undisturbedWait_increasing :
    List.IsChain (· < ·) (0 :: undisturbedWait.map Interruption.cancelling) :=
  .singleton 0

def gitOutcomes (argvs : List (List Text)) : List (Except Raised CommandResult) :=
  argvs.map fun argv => .ok (sampleSurroundings.git argv)

theorem length_gitOutcomes (argvs : List (List Text)) :
    (gitOutcomes argvs).length = argvs.length :=
  List.length_map _

def surroundingsAnswer (s : Places) : (c : Call) → Option (Except Raised (Val c) × Places)
  | .openPath path _ => sampleOpen s (.ok (sampleSurroundings.place path))
  | .openAt name current directory =>
    (s current).bind fun p => sampleOpen s
      (if directory then sampleWorktree.openDirectory p name else sampleWorktree.openFile p name)
  | .duplicate current => (s current).bind fun p => sampleOpen s (.ok p)
  | .close descriptor => some (.ok (), Function.update s descriptor none)
  | .fstat current =>
    (s current).bind fun p => (sampleWorktree p).map fun node => (.ok node.fingerprint, s)
  | .stat path =>
    (sampleWorktree (sampleSurroundings.place path)).map fun node => (.ok node.fingerprint, s)
  | .statAt name current =>
    (s current).bind fun p => (sampleWorktree.stat p name).map fun node => (.ok node.fingerprint, s)
  | .readlink .. | .readText _ | .expired => none
  | .resolve path => some (.ok path, s)
  | .isDirectory _ => some (.ok true, s)
  | .isFile _ => some (.ok false, s)
  | .languageCounts _ => some (.ok [], s)
  | .settled .. => some (.ok ⟨0, undisturbedWait, undisturbedWait_increasing⟩, s)
  | .runReadOnly .. => some (.ok ⟨0, text "/r\n/r/.git\n", []⟩, s)
  | .captureGitCommands argvs _ =>
    some (.ok ⟨gitOutcomes argvs, length_gitOutcomes argvs⟩, s)
  | .hashDescriptors requests algorithm =>
    if requests.all fun request => (s request.descriptor).isSome then
      some (.ok (requests.map fun _ => hashGitBlob sampleHexdigest algorithm []), s)
    else none

theorem sampleOpen_cases {place : Except PyError Descriptor} {r : Except Raised Nat}
    (h : sampleOpen s place = some (r, s')) :
    (∃ descriptor p, r = .ok descriptor ∧ place = .ok p ∧ s descriptor = none ∧
      s' = Function.update s descriptor (some p)) ∨ ∃ e, r = .error e ∧ s' = s := by
  unfold sampleOpen at h
  split at h
  · rename_i descriptor p hf
    cases h
    have hfree := List.find?_some hf
    exact .inl ⟨descriptor, p, rfl, rfl, of_decide_eq_true hfree, rfl⟩
  · cases h
    exact .inr ⟨_, rfl, rfl⟩
  · cases h

theorem surroundingsAnswer_answers {c : Call} {r : Except Raised (Val c)}
    (h : surroundingsAnswer s c = some (r, s')) : Answers sampleSurroundings s c r s' := by
  cases c with
  | openPath path directory =>
    obtain ⟨descriptor, p, rfl, hp, hf, rfl⟩ | ⟨e, rfl, rfl⟩ := sampleOpen_cases h
    · cases hp
      exact .openPath hf
    · exact .failed nofun
  | openAt name current directory =>
    obtain ⟨p, hc, h⟩ := Option.bind_eq_some_iff.1 h
    obtain ⟨descriptor, q, rfl, hq, hf, rfl⟩ | ⟨e, rfl, rfl⟩ := sampleOpen_cases h
    · cases directory with
      | true => exact .openDirectory hc hf hq
      | false => exact .openFile hc hf hq
    · exact .failed nofun
  | duplicate current =>
    obtain ⟨p, hc, h⟩ := Option.bind_eq_some_iff.1 h
    obtain ⟨descriptor, q, rfl, hq, hf, rfl⟩ | ⟨e, rfl, rfl⟩ := sampleOpen_cases h
    · cases hq
      exact .duplicate hc hf
    · exact .failed nofun
  | close descriptor =>
    cases h
    exact .closed
  | fstat current =>
    obtain ⟨p, hc, h⟩ := Option.bind_eq_some_iff.1 h
    obtain ⟨node, hn, h⟩ := Option.map_eq_some_iff.1 h
    cases h
    refine .fstat hc ?_
    rw [Worktree.fstat]
    simp only [sampleSurroundings, hn]
  | stat path =>
    obtain ⟨node, hn, h⟩ := Option.map_eq_some_iff.1 h
    cases h
    exact .stat
  | statAt name current =>
    obtain ⟨p, hc, h⟩ := Option.bind_eq_some_iff.1 h
    obtain ⟨node, hn, h⟩ := Option.map_eq_some_iff.1 h
    cases h
    exact .statAt hc hn
  | readlink | readText | expired => cases h
  | resolve =>
    cases h
    exact .resolve
  | isDirectory =>
    cases h
    exact .isDirectory
  | isFile =>
    cases h
    exact .isFile
  | languageCounts =>
    cases h
    exact .languageCounts
  | settled =>
    cases h
    exact .settled
  | runReadOnly =>
    cases h
    exact .runReadOnly
  | captureGitCommands argvs cwd =>
    cases h
    apply Answers.captured
    intro outcome hm result hr
    rw [gitOutcomes, ← List.map_id argvs, List.map_map, List.zip_map', List.mem_map] at hm
    obtain ⟨argv, -, rfl⟩ := hm
    cases hr
    rfl
  | hashDescriptors requests algorithm =>
    rw [surroundingsAnswer] at h
    split at h
    · rename_i hopen
      cases h
      apply Answers.hashed (openRequests_places (List.all_eq_true.1 hopen))
      simp only [sampleSurroundings, List.map_map, Except.ok.injEq]
      rfl
    · cases h

theorem sampleInspection_steps :
    Prog.Steps (Answers sampleSurroundings)
      (inspect sampleHexdigest (PurePath.ofText (text "/r"))) (fun _ => none)
      ((inspect sampleHexdigest (PurePath.ofText (text "/r"))).exec surroundingsAnswer
        fun _ => none).1
      ((inspect sampleHexdigest (PurePath.ofText (text "/r"))).exec surroundingsAnswer
        fun _ => none).2 := by
  apply Prog.exec_steps
  intro s c r s' h
  exact surroundingsAnswer_answers h

theorem sample_reports_dirty :
    ∃ context : RepositoryContext, context.dirtyPaths = [PurePath.ofText (text "b")] ∧
      ∃ candidateRoot repositoryRoot gitDirectory,
        ReportsDirty sampleSurroundings sampleHexdigest repositoryRoot
          (pinnedArguments candidateRoot repositoryRoot gitDirectory) context := by
  have hrun : ((inspect sampleHexdigest (PurePath.ofText (text "/r"))).exec surroundingsAnswer
      fun _ => none).1.value?.map (fun context => (context.isGitWorktree, context.dirtyPaths)) =
        some (true, [PurePath.ofText (text "b")]) := by
    decide +kernel
  obtain ⟨context, hc, hcontext⟩ := Option.map_eq_some_iff.1 hrun
  have hs := sampleInspection_steps
  rw [Prog.value?_eq_some.1 hc] at hs
  have hhashes : sampleSurroundings.hasher.Hashes sampleSurroundings.worktree sampleHexdigest :=
    fun _ _ _ _ => rfl
  cases context with
  | mk =>
    cases hcontext
    exact ⟨_, rfl, inspect_reports_dirty sampleSurroundings sampleHexdigest _ hhashes hs rfl⟩

end Sample

end LocalRepositoryInspector

end GoalRouter
