import GoalRouter.Decoding
import GoalRouter.GitEvidence

namespace GoalRouter
open Library
set_option autoImplicit true

/-- The outputs that name paths: of `ls-files`, of `ls-tree`, and lists of paths alone. -/
inductive EvidenceOutput where
  | index
  | tree
  | paths (label : Text)

/-- The text of the path in a record of an index or a tree. -/
def recordPath (record : Text) : Text := ((splitFirst tab record).map Prod.snd).getD []

namespace EvidenceOutput

/-- The texts of the paths in an output. -/
def pathTexts (output : EvidenceOutput) (stdout : Text) : List Text :=
  let records := (stdout.splitOn nul).dropLast
  match output with
  | .index | .tree => records.map recordPath
  | .paths _ => records

/-- The paths that the parser of the output accepts. -/
def acceptedPaths (output : EvidenceOutput) (stdout : Text) : Except PyError (List RelativePath) :=
  match output with
  | .index => (parseIndexEntries stdout).map (·.map GitIndexEntry.path)
  | .tree => (parseTreeEntries stdout).map (·.map GitTreeEntry.path)
  | .paths label => parseNulPaths stdout label

end EvidenceOutput

/-- The text without one slash at its end. -/
def withoutSlash (rawPath : Text) : Text :=
  if rawPath.getLast? = some slash then rawPath.dropLast else rawPath

/-- The text spells the path: its parts between slashes are safe, and are the path's. -/
structure Spells (rawPath : Text) (path : RelativePath) : Prop where
  nonempty : path.parts ≠ []
  parts : (withoutSlash rawPath).splitOn slash = path.parts
  safe : ∀ part ∈ (withoutSlash rawPath).splitOn slash,
    part ≠ [] ∧ part ≠ text "." ∧ part ≠ text ".."

/-- The paths are those that their texts spell, so that no two texts alias and every path can be
opened. -/
structure FaithfulPaths (rawPaths : List Text) (paths : List RelativePath) : Prop where
  spelled : List.Forall₂ Spells rawPaths paths
  noAlias : ∀ a ∈ rawPaths.zip paths, ∀ b ∈ rawPaths.zip paths,
    a.2 = b.2 → withoutSlash a.1 = withoutSlash b.1
  opened : ∀ path ∈ paths, ∀ w root mode,
    openWorktreeEntry w root path mode ≠ .error tupleIndexError

/-- `pathlib` leaves the text as it is, but for one slash at its end, and finds a part in it. -/
def LeftAsIs (rawPath : Text) : Prop :=
  normalizePath rawPath = withoutSlash rawPath ∧ withoutSlash rawPath ≠ text "."

section Records

variable {α : Type} {σ : Type}

/-- A fold that appends what it parses from each record has parsed one thing for each. -/
theorem foldlM_records {step : List α × σ → Text → Except PyError (List α × σ)}
    {R : Text → α → Prop} {parsed : List α} {s : σ} {records : List Text} {r : List α × σ}
    (hstep : ∀ {parsed s record r}, step (parsed, s) record = .ok r →
      ∃ a, r.1 = parsed ++ [a] ∧ R record a)
    (h : records.foldlM step (parsed, s) = .ok r) :
    ∃ new, r.1 = parsed ++ new ∧ List.Forall₂ R records new := by
  induction records generalizing parsed s with
  | nil =>
    cases h
    exact ⟨[], (List.append_nil _).symm, .nil⟩
  | cons record records ih =>
    obtain ⟨⟨parsed', s'⟩, hr, h⟩ := bind_ok h
    obtain ⟨a, rfl, ha⟩ := hstep hr
    obtain ⟨new, hnew, hrel⟩ := ih h
    exact ⟨a :: new, by rw [hnew, List.append_assoc, List.singleton_append], .cons ha hrel⟩

theorem splitNulRecords_ok (h : splitNulRecords stdout label = .ok records) :
    records = (stdout.splitOn nul).dropLast := by
  simp only [splitNulRecords] at h
  split_ifs at h with hn
  · cases h
    rw [hn]
    rfl
  · cases h
    rfl

theorem recordPath_of_splitRecord (h : splitRecord record = some (metadata, rawPath)) :
    recordPath record = rawPath := by
  obtain ⟨⟨fields, raw⟩, hs, he⟩ := Option.map_eq_some_iff.1 h
  rw [recordPath, hs]
  exact congrArg Prod.snd he

theorem parseIndexRecord_ok {parsed : List GitIndexEntry} {lengths : Finset Nat}
    (h : parseIndexRecord (parsed, lengths) record = .ok r) :
    ∃ entry, r.1 = parsed ++ [entry] ∧
      parseRepositoryPath (recordPath record) indexLabel = .ok entry.path := by
  simp only [parseIndexRecord] at h
  split at h
  · rename_i tag mode objectId rawStage rawPath hsplit
    rw [recordPath_of_splitRecord hsplit]
    cases hstage : parseInteger rawStage with
    | none => rw [hstage] at h; cases h
    | some stage =>
    cases htag : parseTag tag with
    | none => rw [hstage, htag] at h; cases h
    | some tag =>
    cases hmode : parseMode mode with
    | none => rw [hstage, htag, hmode] at h; cases h
    | some mode =>
      simp only [hstage, htag, hmode] at h
      split at h
      · cases h
      · obtain ⟨lengths, -, h⟩ := bind_ok h
        obtain ⟨path, hpath, h⟩ := bind_ok h
        cases h
        exact ⟨_, rfl, hpath⟩
  · cases h

theorem parseTreeRecord_ok {parsed : List GitTreeEntry} {lengths : Finset Nat}
    (h : parseTreeRecord (parsed, lengths) record = .ok r) :
    ∃ entry, r.1 = parsed ++ [entry] ∧
      parseRepositoryPath (recordPath record) treeLabel = .ok entry.path := by
  simp only [parseTreeRecord] at h
  split at h
  · rename_i mode objectType objectId rawPath hsplit
    rw [recordPath_of_splitRecord hsplit]
    cases hmode : parseMode mode with
    | none => rw [hmode] at h; cases h
    | some mode =>
      simp only [hmode] at h
      by_cases htype : objectType ≠ if mode = .gitlink then text "commit" else text "blob"
      · rw [if_pos htype] at h
        cases h
      · rw [if_neg htype] at h
        obtain ⟨lengths, -, h⟩ := bind_ok h
        obtain ⟨path, hpath, h⟩ := bind_ok h
        split at h
        · cases h
        · cases h
          exact ⟨_, rfl, hpath⟩
  · cases h

end Records

namespace EvidenceOutput

def label : EvidenceOutput → Text
  | .index => indexLabel
  | .tree => treeLabel
  | .paths label => label

end EvidenceOutput

theorem map_ok {α β : Type} {x : Except PyError α} {f : α → β} {b : β} (h : x.map f = .ok b) :
    ∃ a, x = .ok a ∧ f a = b := by
  cases x with
  | error e => cases h
  | ok a => exact ⟨a, rfl, Except.ok.inj h⟩

theorem acceptedPaths_parsed {output : EvidenceOutput} {accepted : List RelativePath}
    (h : output.acceptedPaths stdout = .ok accepted) :
    List.Forall₂ (fun rawPath path => parseRepositoryPath rawPath output.label = .ok path)
      (output.pathTexts stdout) accepted := by
  cases output with
  | index =>
    obtain ⟨entries, he, rfl⟩ := map_ok h
    obtain ⟨records, hr, he⟩ := bind_ok he
    obtain ⟨r, hfold, he⟩ := bind_ok he
    obtain ⟨-, -, he⟩ := bind_ok he
    cases he
    obtain ⟨new, hnew, hrel⟩ := foldlM_records parseIndexRecord_ok hfold
    rw [hnew, EvidenceOutput.pathTexts, ← splitNulRecords_ok hr]
    exact List.forall₂_map_left_iff.2 (List.forall₂_map_right_iff.2 hrel)
  | tree =>
    obtain ⟨entries, he, rfl⟩ := map_ok h
    obtain ⟨records, hr, he⟩ := bind_ok he
    obtain ⟨r, hfold, he⟩ := bind_ok he
    obtain ⟨-, -, he⟩ := bind_ok he
    cases he
    obtain ⟨new, hnew, hrel⟩ := foldlM_records parseTreeRecord_ok hfold
    rw [hnew, EvidenceOutput.pathTexts, ← splitNulRecords_ok hr]
    exact List.forall₂_map_left_iff.2 (List.forall₂_map_right_iff.2 hrel)
  | paths label =>
    obtain ⟨records, hr, h⟩ := bind_ok h
    obtain ⟨paths, hp, h⟩ := bind_ok h
    split at h
    · cases h
    · cases h
      rw [EvidenceOutput.pathTexts, ← splitNulRecords_ok hr]
      exact mapM_forall hp

theorem parseRepositoryPath_ok (h : parseRepositoryPath rawPath label = .ok path) :
    path.parts = pathParts rawPath ∧ rawPath ≠ [] ∧ pathRoot rawPath = [] ∧
      text ".." ∉ path.parts := by
  rw [parseRepositoryPath] at h
  split_ifs at h with hsafe
  cases h
  rw [not_or, not_or, not_not] at hsafe
  refine ⟨rfl, hsafe.1, hsafe.2.1, fun hp => hsafe.2.2 ?_⟩
  exact List.any_eq_true.2 ⟨_, hp, by decide⟩

/-- An accepted text spells its path just where `pathlib` leaves it as it is. -/
theorem spells_iff (h : parseRepositoryPath rawPath label = .ok path) :
    Spells rawPath path ↔ LeftAsIs rawPath := by
  obtain ⟨hparts, hn, hroot, hup⟩ := parseRepositoryPath_ok h
  have hnormal : normalizePath rawPath = joinParts [] path.parts := by
    rw [normalizePath, hroot, hparts]
  constructor
  · intro hs
    have hjoin : withoutSlash rawPath = [slash].intercalate path.parts := by
      rw [← hs.parts]
      exact (List.intercalate_splitOn slash).symm
    refine ⟨?_, fun hdot => ?_⟩
    · have := asPosix_eq hs.nonempty
      rw [hnormal, hjoin]
      exact this.1
    · have hmem : text "." ∈ (withoutSlash rawPath).splitOn slash := by
        rw [hdot]
        decide
      exact (hs.safe _ hmem).2.1 rfl
  · rintro ⟨hleft, hdot⟩
    have hne : path.parts ≠ [] := by
      intro he
      rw [hnormal, he] at hleft
      exact hdot (hleft.symm.trans (by decide))
    have hjoin : withoutSlash rawPath = [slash].intercalate path.parts := by
      rw [← hleft, hnormal]
      exact (asPosix_eq hne).1
    have hsplit : (withoutSlash rawPath).splitOn slash = path.parts := by
      rw [hjoin]
      exact List.splitOn_intercalate slash (fun p hp => (path.kept p hp).2) hne
    refine ⟨hne, hsplit, fun part hp => ?_⟩
    rw [hsplit] at hp
    have hkept := (path.kept part hp).1
    refine ⟨?_, ?_, fun he => hup (he ▸ hp)⟩
    · rintro rfl
      exact absurd hkept (by decide)
    · rintro rfl
      exact absurd hkept (by decide)

theorem openWorktreeEntry_ne_indexError (h : path.parts ≠ []) (w : Worktree) (root : Descriptor)
    (mode : EntryMode) : openWorktreeEntry w root path mode ≠ .error tupleIndexError := by
  intro he
  have hspec := openWorktreeEntry_spec w root ⟨.cached, mode, [], 0, path⟩
  rw [he] at hspec
  cases hspec with
  | failed hf =>
    rcases @failure_eq_none_or w root ⟨.cached, mode, [], 0, path⟩ h with
      ⟨-, e, hfe, hsafe⟩ | ⟨-, hnone⟩
    · rw [hfe] at hf
      cases hf
      exact not_safetyError_tupleIndexError hsafe
    · rw [hnone] at hf
      cases hf

theorem faithfulPaths_of_spelled (h : List.Forall₂ Spells rawPaths paths) :
    FaithfulPaths rawPaths paths where
  spelled := h
  noAlias := by
    have hzip := List.forall₂_iff_zip.1 h
    intro a ha b hb hab
    have hsa := (hzip.2 ha).parts
    have hsb := (hzip.2 hb).parts
    calc withoutSlash a.1 = [slash].intercalate ((withoutSlash a.1).splitOn slash) :=
          (List.intercalate_splitOn slash).symm
      _ = [slash].intercalate ((withoutSlash b.1).splitOn slash) := by rw [hsa, hab, hsb]
      _ = withoutSlash b.1 := List.intercalate_splitOn slash
  opened := by
    induction h with
    | nil => exact fun _ hp => absurd hp List.not_mem_nil
    | cons hs _ ih =>
      rw [List.forall_mem_cons]
      exact ⟨openWorktreeEntry_ne_indexError hs.nonempty, ih⟩

theorem forall_spells_iff
    (h : List.Forall₂ (fun rawPath path => parseRepositoryPath rawPath label = .ok path)
      rawPaths paths) :
    List.Forall₂ Spells rawPaths paths ↔ ∀ rawPath ∈ rawPaths, LeftAsIs rawPath := by
  induction h with
  | nil => simp
  | cons hp _ ih => rw [List.forall₂_cons, List.forall_mem_cons, spells_iff hp, ih]

/-- The accepted paths are what their texts in the output spell if and only if `pathlib` leaves
these texts as they are. -/
theorem accepted_paths_faithful_iff {output : EvidenceOutput} {accepted : List RelativePath}
    (h : output.acceptedPaths stdout = .ok accepted) :
    FaithfulPaths (output.pathTexts stdout) accepted ↔
      ∀ rawPath ∈ output.pathTexts stdout, LeftAsIs rawPath := by
  have hspelled := forall_spells_iff (acceptedPaths_parsed h)
  exact ⟨fun hf => hspelled.1 hf.spelled, fun hleft => faithfulPaths_of_spelled (hspelled.2 hleft)⟩

theorem accepted_paths_faithful_iff_sample :
    FaithfulPaths ((EvidenceOutput.paths (text "untracked")).pathTexts (text "a/b\x00c/\x00"))
        [⟨[text "a", text "b"], by decide⟩, ⟨[text "c"], by decide⟩] ↔
      ∀ rawPath ∈ (EvidenceOutput.paths (text "untracked")).pathTexts (text "a/b\x00c/\x00"),
        LeftAsIs rawPath := by
  apply accepted_paths_faithful_iff
  decide +kernel

/-- What `ls-files` prints for an empty file. -/
def emptyFileText (rawPath : String) : Text :=
  text "H 100644 " ++ emptyBlobId ++ text " 0\t" ++ text rawPath ++ [nul]

/-- The path `.` is accepted, and cannot be opened; and two texts may name one path. -/
theorem dot_path_accepted :
    EvidenceOutput.index.acceptedPaths (emptyFileText ".") = .ok [dotPath] ∧
      ¬FaithfulPaths (EvidenceOutput.index.pathTexts (emptyFileText ".")) [dotPath] ∧
      openWorktreeEntry emptyFileWorktree [] dotPath .regular = .error tupleIndexError ∧
      EvidenceOutput.index.acceptedPaths (emptyFileText "./a" ++ emptyFileText "a") =
        .ok [namedPath, namedPath] := by
  have hopen : openWorktreeEntry emptyFileWorktree [] dotPath .regular = .error tupleIndexError :=
    rfl
  have hfaithful : ¬FaithfulPaths (EvidenceOutput.index.pathTexts (emptyFileText "."))
      [dotPath] := fun hf => hf.opened dotPath List.mem_cons_self _ _ _ hopen
  exact ⟨by decide +kernel, hfaithful, hopen, by decide +kernel⟩

end GoalRouter
