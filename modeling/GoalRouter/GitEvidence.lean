import GoalRouter.DirtyPaths
import GoalRouter.Library.IntegerText
import GoalRouter.Library.Separators

namespace GoalRouter
open Library
set_option autoImplicit true

abbrev nul : CodePoint := 0

abbrev tab : CodePoint := 0x09

abbrev space : CodePoint := 0x20

def evidenceError (label : Text) (message : String) : PyError :=
  ⟨.repositoryError, text "Git " ++ label ++ text message⟩

def splitNulRecords (stdout label : Text) : Except PyError (List Text) :=
  if stdout = [] then .ok []
  else if stdout.getLast? ≠ some nul then
    .error (evidenceError label " returned malformed NUL-delimited evidence")
  else
    let records := (stdout.splitOn nul).dropLast
    if records.any (· = []) then .error (evidenceError label " returned an empty evidence record")
    else .ok records

def parseTag (tag : Text) : Option IndexTag :=
  if tag = text "H" then some .cached
  else if tag = text "S" then some .skipWorktree
  else if tag = text "M" then some .unmerged
  else none

/-- The modes of `_ALLOWED_INDEX_MODES`. -/
def parseMode (mode : Text) : Option EntryMode :=
  if mode = text "100644" then some .regular
  else if mode = text "100755" then some .executable
  else if mode = text "120000" then some .symlink
  else if mode = text "160000" then some .gitlink
  else none

def isObjectId (objectId : Text) : Bool :=
  (objectId.length = 40 || objectId.length = 64) && objectId.all (· ∈ text "0123456789abcdef")

def validateObjectId (objectId : Text) (lengths : Finset Nat) : Except PyError (Finset Nat) :=
  if !isObjectId objectId then .error (repositoryError "Git returned an invalid object identifier")
  else .ok (insert objectId.length lengths)

/-- The metadata of a record, and the text of its path after the first tab. -/
def splitRecord (record : Text) : Option (List Text × Text) :=
  (splitFirst tab record).map fun (metadata, rawPath) => (metadata.splitOn space, rawPath)

def indexLabel : Text := text "index"

def parseIndexRecord (parsed : List GitIndexEntry × Finset Nat) (record : Text) :
    Except PyError (List GitIndexEntry × Finset Nat) := do
  let (entries, objectLengths) := parsed
  let malformed := repositoryError "Git index returned malformed evidence"
  match splitRecord record with
  | some ([tag, mode, objectId, rawStage], rawPath) =>
    match parseInteger rawStage with
    | none => throw malformed
    | some stage =>
      match parseTag tag with
      | none => throw (repositoryError "Git index returned an unknown entry tag")
      | some tag =>
        match parseMode mode with
        | none => throw (repositoryError "Git index returned an unsupported entry mode")
        | some mode =>
          if ¬(0 ≤ stage ∧ stage ≤ 3) ∨ (tag = .unmerged) ≠ (stage ≠ 0) then
            throw (repositoryError "Git index returned an invalid stage entry")
          let objectLengths ← validateObjectId objectId objectLengths
          let path ← parseRepositoryPath rawPath indexLabel
          return (entries ++ [⟨tag, mode, objectId, stage.toNat, path⟩], objectLengths)
  | _ => throw malformed

def parseIndexEntries (stdout : Text) : Except PyError (List GitIndexEntry) := do
  let records ← splitNulRecords stdout indexLabel
  let (entries, objectLengths) ← records.foldlM parseIndexRecord ([], ∅)
  requireConsistentObjectFormat objectLengths
  return entries

def treeLabel : Text := text "HEAD tree"

/-- The entries of the tree are distinct in their paths: those are the `seen` ones. -/
def parseTreeRecord (parsed : List GitTreeEntry × Finset Nat) (record : Text) :
    Except PyError (List GitTreeEntry × Finset Nat) := do
  let (entries, objectLengths) := parsed
  match splitRecord record with
  | some ([mode, objectType, objectId], rawPath) =>
    match parseMode mode with
    | none => throw (repositoryError "Git HEAD tree returned unsupported evidence")
    | some mode =>
      if objectType ≠ (if mode = .gitlink then text "commit" else text "blob") then
        throw (repositoryError "Git HEAD tree returned unsupported evidence")
      let objectLengths ← validateObjectId objectId objectLengths
      let path ← parseRepositoryPath rawPath treeLabel
      if path ∈ entries.map GitTreeEntry.path then
        throw (repositoryError "Git HEAD tree returned duplicate path evidence")
      return (entries ++ [⟨mode, objectId, path⟩], objectLengths)
  | _ => throw (repositoryError "Git HEAD tree returned malformed evidence")

def parseTreeEntries (stdout : Text) : Except PyError (List GitTreeEntry) := do
  let records ← splitNulRecords stdout treeLabel
  let (entries, objectLengths) ← records.foldlM parseTreeRecord ([], ∅)
  requireConsistentObjectFormat objectLengths
  return entries

def parseNulPaths (stdout label : Text) : Except PyError (List RelativePath) := do
  let records ← splitNulRecords stdout label
  let paths ← records.mapM fun record => parseRepositoryPath record label
  if ¬paths.Nodup then throw (evidenceError label " returned duplicate path evidence")
  return paths

namespace IndexTag

def code : IndexTag → Text
  | .cached => text "H"
  | .skipWorktree => text "S"
  | .unmerged => text "M"

end IndexTag

namespace EntryMode

def code : EntryMode → Text
  | .regular => text "100644"
  | .executable => text "100755"
  | .symlink => text "120000"
  | .gitlink => text "160000"

end EntryMode

/-- A record of an output: its metadata, a tab and the text of its path. -/
def evidenceRecord (metadata : List Text) (path : RelativePath) : Text :=
  [space].intercalate metadata ++ tab :: path.asPosix

namespace GitIndexEntry

def metadata (entry : GitIndexEntry) : List Text :=
  [entry.tag.code, entry.mode.code, entry.objectId, decimal entry.stage]

def record (entry : GitIndexEntry) : Text := evidenceRecord entry.metadata entry.path

end GitIndexEntry

namespace GitTreeEntry

def metadata (entry : GitTreeEntry) : List Text :=
  [entry.mode.code, if entry.mode = .gitlink then text "commit" else text "blob", entry.objectId]

def record (entry : GitTreeEntry) : Text := evidenceRecord entry.metadata entry.path

end GitTreeEntry

/-- A path that an output may name, by the components that its text has. -/
structure CanonicalPath (path : RelativePath) : Prop where
  nonempty : path.parts ≠ []
  noParent : text ".." ∉ path.parts
  noNul : ∀ part ∈ path.parts, nul ∉ part

structure GitIndexEntry.Canonical (entry : GitIndexEntry) : Prop where
  objectId : isObjectId entry.objectId = true
  stage : entry.tag ≠ .unmerged ∧ entry.stage = 0 ∨
    entry.tag = .unmerged ∧ 1 ≤ entry.stage ∧ entry.stage ≤ 3
  path : CanonicalPath entry.path

structure GitTreeEntry.Canonical (entry : GitTreeEntry) : Prop where
  objectId : isObjectId entry.objectId = true
  path : CanonicalPath entry.path

section Records

/-- The text has none of the separators of a record. -/
def isBare (t : Text) : Bool := t.all fun c => c ≠ space && c ≠ tab && c ≠ nul

theorem not_mem_of_isBare (h : isBare t = true) : space ∉ t ∧ tab ∉ t ∧ nul ∉ t := by
  have hc (c : CodePoint) (hc : (c ≠ space && c ≠ tab && c ≠ nul) = false) : c ∉ t := fun hm =>
    Bool.false_ne_true (hc.symm.trans (List.all_eq_true.1 h c hm))
  exact ⟨hc _ (by decide), hc _ (by decide), hc _ (by decide)⟩

theorem not_mem_intercalate {sep c : CodePoint} (hs : c ≠ sep) {fields : List Text}
    (h : ∀ field ∈ fields, c ∉ field) : c ∉ [sep].intercalate fields := by
  induction fields with
  | nil => exact List.not_mem_nil
  | cons field fields ih =>
    have hf := h field List.mem_cons_self
    have hi := ih fun f hm => h f (List.mem_cons_of_mem _ hm)
    cases fields with
    | nil => simpa using hf
    | cons next rest =>
      rw [List.intercalate_cons_cons]
      simp only [List.mem_append, List.mem_singleton, not_or]
      exact ⟨⟨hf, hs⟩, hi⟩

theorem asPosix_eq {path : RelativePath} (h : path.parts ≠ []) :
    path.asPosix = [slash].intercalate path.parts ∧ path.asPosix ≠ [] := by
  have hn : path.asPosix ≠ [] := by
    rw [RelativePath.asPosix, joinParts]
    split
    · decide
    · assumption
  refine ⟨?_, hn⟩
  rw [RelativePath.asPosix, joinParts, List.nil_append, if_neg]
  intro he
  have hp := pathParts_intercalate path.kept
  rw [he] at hp
  exact h (hp.symm.trans (by decide))

theorem nul_not_mem_record {metadata : List Text} {path : RelativePath}
    (hm : ∀ field ∈ metadata, isBare field = true) (hp : CanonicalPath path) :
    nul ∉ evidenceRecord metadata path := by
  have hfields : nul ∉ [space].intercalate metadata :=
    not_mem_intercalate (by decide) fun field hf => (not_mem_of_isBare (hm field hf)).2.2
  have hpath : nul ∉ path.asPosix := by
    rw [(asPosix_eq hp.nonempty).1]
    exact not_mem_intercalate (by decide) hp.noNul
  rw [evidenceRecord, List.mem_append, List.mem_cons, not_or, not_or]
  exact ⟨hfields, by decide, hpath⟩

/-- The first tab ends the metadata, whatever the path has. -/
theorem splitRecord_record {metadata : List Text} (hn : metadata ≠ [])
    (hm : ∀ field ∈ metadata, isBare field = true) (path : RelativePath) :
    splitRecord (evidenceRecord metadata path) = some (metadata, path.asPosix) := by
  have htab : tab ∉ [space].intercalate metadata :=
    not_mem_intercalate (by decide) fun field hf => (not_mem_of_isBare (hm field hf)).2.1
  have hspace : ([space].intercalate metadata).splitOn space = metadata :=
    List.splitOn_intercalate space (fun field hf => (not_mem_of_isBare (hm field hf)).1) hn
  simp only [splitRecord, evidenceRecord, splitFirst_append htab, Option.map_some, hspace]

theorem splitNulRecords_terminate {records : List Text}
    (h : ∀ record ∈ records, nul ∉ record ∧ record ≠ []) (label : Text) :
    splitNulRecords (terminate nul records) label = .ok records := by
  have hsplit : (terminate nul records).splitOn nul = records ++ [[]] :=
    splitOn_terminate fun record hr => (h record hr).1
  rcases List.eq_nil_or_concat' records with rfl | ⟨front, last, rfl⟩
  · rfl
  · have hlast : (terminate nul (front ++ [last])).getLast? = some nul := by
      rw [terminate, List.flatMap_append, List.flatMap_singleton, ← List.append_assoc,
        List.getLast?_concat]
    have hn : terminate nul (front ++ [last]) ≠ [] := by
      intro he
      rw [he] at hlast
      cases hlast
    have hempty : ((front ++ [last]).any (· = [])) = false := by
      rw [List.any_eq_false]
      exact fun record hr he => (h record hr).2 (of_decide_eq_true he)
    simp only [splitNulRecords, if_neg hn, hlast, ne_eq, not_true_eq_false, if_false, hsplit,
      List.dropLast_concat, hempty, Bool.false_eq_true]

theorem parseRepositoryPath_asPosix {path : RelativePath} (h : CanonicalPath path) (label : Text) :
    parseRepositoryPath path.asPosix label = .ok path := by
  obtain ⟨he, hn⟩ := asPosix_eq h.nonempty
  have hroot : pathRoot path.asPosix = [] := by
    rw [he]
    exact pathRoot_append (.inl rfl) (intercalate_head path.kept)
  have hsafe : path.parts.any (fun part => part = [] ∨ part = text "." ∨ part = text "..") =
      false := by
    rw [List.any_eq_false]
    intro part hp hbad
    obtain hbad | hbad | hbad := of_decide_eq_true hbad
    · subst hbad
      exact absurd (path.kept _ hp).1 (by decide)
    · subst hbad
      exact absurd (path.kept _ hp).1 (by decide)
    · exact h.noParent (hbad ▸ hp)
  have hcond : ¬(path.asPosix = [] ∨ pathRoot path.asPosix ≠ [] ∨
      (pathParts path.asPosix).any
        (fun part => part = [] ∨ part = text "." ∨ part = text "..")) := by
    rw [path.pathParts_asPosix, hsafe, hroot]
    simpa using hn
  rw [parseRepositoryPath, if_neg hcond]
  cases path
  congr 2
  exact RelativePath.pathParts_asPosix _

end Records

section RoundTrip

theorem isBare_code (tag : IndexTag) : isBare tag.code = true := by
  cases tag <;> decide

theorem EntryMode.isBare_code (mode : EntryMode) : isBare mode.code = true := by
  cases mode <;> decide

theorem isBare_objectId (h : isObjectId objectId = true) : isBare objectId = true := by
  have hall := (Bool.and_eq_true_iff.1 h).2
  have hbare : isBare (text "0123456789abcdef") = true := by decide
  rw [isBare, List.all_eq_true]
  exact fun c hc => List.all_eq_true.1 hbare c (of_decide_eq_true (List.all_eq_true.1 hall c hc))

theorem parseTag_code (tag : IndexTag) : parseTag tag.code = some tag := by
  cases tag <;> decide

theorem parseMode_code (mode : EntryMode) : parseMode mode.code = some mode := by
  cases mode <;> decide

theorem stage_text : ∀ stage ≤ 3,
    isBare (decimal (stage : Nat)) = true ∧ parseInteger (decimal stage) = some (stage : Int) := by
  decide +kernel

theorem validateObjectId_ok (h : isObjectId objectId = true) (lengths : Finset Nat) :
    validateObjectId objectId lengths = .ok (insert objectId.length lengths) := by
  rw [validateObjectId, h]
  rfl

theorem GitIndexEntry.Canonical.stage_le (h : GitIndexEntry.Canonical entry) :
    entry.stage ≤ 3 := by
  rcases h.stage with ⟨-, h⟩ | ⟨-, -, h⟩ <;> omega

theorem GitIndexEntry.Canonical.bare_metadata (h : GitIndexEntry.Canonical entry) :
    ∀ field ∈ entry.metadata, isBare field = true := by
  simp only [GitIndexEntry.metadata, List.forall_mem_cons]
  exact ⟨isBare_code _, EntryMode.isBare_code _, isBare_objectId h.objectId,
    (stage_text _ h.stage_le).1, fun _ hm => absurd hm List.not_mem_nil⟩

theorem parseIndexRecord_record (h : GitIndexEntry.Canonical entry) (entries : List GitIndexEntry)
    (lengths : Finset Nat) :
    parseIndexRecord (entries, lengths) entry.record =
      .ok (entries ++ [entry], insert entry.objectId.length lengths) := by
  have hsplit : splitRecord entry.record = some (entry.metadata, entry.path.asPosix) :=
    splitRecord_record (List.cons_ne_nil _ _) h.bare_metadata entry.path
  have hstage : ¬(¬(0 ≤ (entry.stage : Int) ∧ (entry.stage : Int) ≤ 3) ∨
      (entry.tag = .unmerged) ≠ ((entry.stage : Int) ≠ 0)) := by
    rw [not_or, not_not, ne_eq, not_not, eq_iff_iff]
    have hle := h.stage_le
    rcases h.stage with ⟨ht, hs⟩ | ⟨ht, hs, -⟩
    · exact ⟨by omega, by simp [ht, hs]⟩
    · exact ⟨by omega, by simp only [ht, true_iff]; omega⟩
  simp only [parseIndexRecord, hsplit, GitIndexEntry.metadata, (stage_text _ h.stage_le).2,
    parseTag_code, parseMode_code, if_neg hstage, validateObjectId_ok h.objectId,
    parseRepositoryPath_asPosix h.path]
  rfl

theorem foldlM_parseIndexRecord {entries : List GitIndexEntry} (h : ∀ e ∈ entries, e.Canonical)
    (parsed : List GitIndexEntry) (lengths : Finset Nat) :
    (entries.map GitIndexEntry.record).foldlM parseIndexRecord (parsed, lengths) =
      .ok (parsed ++ entries, lengths ∪ (entries.map (·.objectId.length)).toFinset) := by
  induction entries generalizing parsed lengths with
  | nil => simp; rfl
  | cons entry entries ih =>
    have hstep := parseIndexRecord_record (h entry List.mem_cons_self) parsed lengths
    rw [List.map_cons, List.foldlM_cons, hstep]
    refine (ih (fun e he => h e (List.mem_cons_of_mem _ he)) _ _).trans ?_
    rw [List.append_assoc, List.singleton_append, List.map_cons, List.toFinset_cons,
      Finset.union_insert, Finset.insert_union]

theorem requireConsistent_of_length {α : Type} {entries : List α} {length : α → Nat} {n : Nat}
    (h : ∀ e ∈ entries, length e = n) :
    requireConsistentObjectFormat (∅ ∪ (entries.map length).toFinset) = .ok () := by
  have hsub : (∅ : Finset Nat) ∪ (entries.map length).toFinset ⊆ {n} := by
    intro m hm
    obtain ⟨e, he, rfl⟩ := List.mem_map.1 (List.mem_toFinset.1 (by simpa using hm))
    exact Finset.mem_singleton.2 (h e he)
  have hcard := Finset.card_le_card hsub
  rw [Finset.card_singleton] at hcard
  rw [requireConsistentObjectFormat, if_neg (by omega)]

theorem parseIndexEntries_records {entries : List GitIndexEntry} (h : ∀ e ∈ entries, e.Canonical)
    (hlen : ∀ e ∈ entries, e.objectId.length = n) :
    parseIndexEntries (terminate nul (entries.map GitIndexEntry.record)) = .ok entries := by
  have hrecords : ∀ record ∈ entries.map GitIndexEntry.record, nul ∉ record ∧ record ≠ [] := by
    intro record hr
    obtain ⟨entry, he, rfl⟩ := List.mem_map.1 hr
    exact ⟨nul_not_mem_record (h entry he).bare_metadata (h entry he).path, by
      simp [GitIndexEntry.record, evidenceRecord]⟩
  rw [parseIndexEntries, splitNulRecords_terminate hrecords]
  have hfold := foldlM_parseIndexRecord h [] ∅
  change (entries.map GitIndexEntry.record).foldlM parseIndexRecord ([], ∅) >>= _ = _
  rw [hfold]
  change (requireConsistentObjectFormat _ >>= _) = _
  rw [requireConsistent_of_length hlen]
  rfl

theorem GitTreeEntry.Canonical.bare_metadata (h : GitTreeEntry.Canonical entry) :
    ∀ field ∈ entry.metadata, isBare field = true := by
  have htype : isBare (if entry.mode = .gitlink then text "commit" else text "blob") = true := by
    split <;> decide
  simp only [GitTreeEntry.metadata, List.forall_mem_cons]
  exact ⟨EntryMode.isBare_code _, htype, isBare_objectId h.objectId,
    fun _ hm => absurd hm List.not_mem_nil⟩

theorem parseTreeRecord_record (h : GitTreeEntry.Canonical entry) {entries : List GitTreeEntry}
    (hnew : entry.path ∉ entries.map GitTreeEntry.path) (lengths : Finset Nat) :
    parseTreeRecord (entries, lengths) entry.record =
      .ok (entries ++ [entry], insert entry.objectId.length lengths) := by
  have hsplit : splitRecord entry.record = some (entry.metadata, entry.path.asPosix) :=
    splitRecord_record (List.cons_ne_nil _ _) h.bare_metadata entry.path
  simp only [parseTreeRecord, hsplit, GitTreeEntry.metadata, parseMode_code, ne_eq,
    not_true_eq_false, if_false, validateObjectId_ok h.objectId,
    parseRepositoryPath_asPosix h.path]
  change (if entry.path ∈ entries.map GitTreeEntry.path then _ else _) = _
  rw [if_neg hnew]
  rfl

theorem foldlM_parseTreeRecord {entries : List GitTreeEntry} (h : ∀ e ∈ entries, e.Canonical)
    {parsed : List GitTreeEntry} (hn : ((parsed ++ entries).map GitTreeEntry.path).Nodup)
    (lengths : Finset Nat) :
    (entries.map GitTreeEntry.record).foldlM parseTreeRecord (parsed, lengths) =
      .ok (parsed ++ entries, lengths ∪ (entries.map (·.objectId.length)).toFinset) := by
  induction entries generalizing parsed lengths with
  | nil => simp; rfl
  | cons entry entries ih =>
    have hnew : entry.path ∉ parsed.map GitTreeEntry.path := by
      rw [List.map_append, List.map_cons] at hn
      exact fun hm => (List.nodup_append.1 hn).2.2 _ hm _ List.mem_cons_self rfl
    have hstep := parseTreeRecord_record (h entry List.mem_cons_self) hnew lengths
    rw [List.append_cons] at hn
    rw [List.map_cons, List.foldlM_cons, hstep]
    refine (ih (fun e he => h e (List.mem_cons_of_mem _ he)) hn _).trans ?_
    rw [List.append_assoc, List.singleton_append, List.map_cons, List.toFinset_cons,
      Finset.union_insert, Finset.insert_union]

theorem parseTreeEntries_records {entries : List GitTreeEntry} (h : ∀ e ∈ entries, e.Canonical)
    (hlen : ∀ e ∈ entries, e.objectId.length = n)
    (hn : (entries.map GitTreeEntry.path).Nodup) :
    parseTreeEntries (terminate nul (entries.map GitTreeEntry.record)) = .ok entries := by
  have hrecords : ∀ record ∈ entries.map GitTreeEntry.record, nul ∉ record ∧ record ≠ [] := by
    intro record hr
    obtain ⟨entry, he, rfl⟩ := List.mem_map.1 hr
    exact ⟨nul_not_mem_record (h entry he).bare_metadata (h entry he).path, by
      simp [GitTreeEntry.record, evidenceRecord]⟩
  have hfold := @foldlM_parseTreeRecord entries h [] hn ∅
  rw [parseTreeEntries, splitNulRecords_terminate hrecords]
  change (entries.map GitTreeEntry.record).foldlM parseTreeRecord ([], ∅) >>= _ = _
  rw [hfold]
  change (requireConsistentObjectFormat _ >>= _) = _
  rw [requireConsistent_of_length hlen]
  rfl

/-- What is written for the entries of an index or a tree is parsed to exactly these. -/
theorem evidence_round_trip {index : List GitIndexEntry} {head : List GitTreeEntry}
    (hindex : ∀ entry ∈ index, entry.Canonical ∧ entry.objectId.length = n)
    (hhead : ∀ entry ∈ head, entry.Canonical ∧ entry.objectId.length = m)
    (hn : (head.map GitTreeEntry.path).Nodup) :
    parseIndexEntries (terminate nul (index.map GitIndexEntry.record)) = .ok index ∧
      parseTreeEntries (terminate nul (head.map GitTreeEntry.record)) = .ok head :=
  ⟨parseIndexEntries_records (fun e he => (hindex e he).1) fun e he => (hindex e he).2,
    parseTreeEntries_records (fun e he => (hhead e he).1) (fun e he => (hhead e he).2) hn⟩

/-- A path with a tab, a newline, spaces, quotes, an arrow and an escaped byte. -/
def unusualPath : RelativePath where
  parts := [text "a\tb\nc", 0xDCFF :: text " \"x\" -> y"]
  kept := by decide +kernel

theorem unusualPath_canonical : CanonicalPath unusualPath := by
  constructor <;> decide +kernel

theorem evidence_round_trip_unusual :
    parseIndexEntries (terminate nul ([⟨.unmerged, .regular, emptyBlobId, 1, unusualPath⟩,
        ⟨.unmerged, .symlink, emptyBlobId, 2, unusualPath⟩].map GitIndexEntry.record)) =
      .ok [⟨.unmerged, .regular, emptyBlobId, 1, unusualPath⟩,
        ⟨.unmerged, .symlink, emptyBlobId, 2, unusualPath⟩] ∧
    parseTreeEntries (terminate nul ([⟨.gitlink, emptyBlobId, unusualPath⟩].map
        GitTreeEntry.record)) = .ok [⟨.gitlink, emptyBlobId, unusualPath⟩] := by
  have hid : isObjectId emptyBlobId = true := by decide +kernel
  have hlen : emptyBlobId.length = 40 := by decide
  apply evidence_round_trip (n := 40) (m := 40)
  · simp only [List.forall_mem_cons]
    exact ⟨⟨⟨hid, .inr (by decide), unusualPath_canonical⟩, hlen⟩,
      ⟨⟨hid, .inr (by decide), unusualPath_canonical⟩, hlen⟩,
        fun _ hm => absurd hm List.not_mem_nil⟩
  · simp only [List.forall_mem_cons]
    exact ⟨⟨⟨hid, unusualPath_canonical⟩, hlen⟩, fun _ hm => absurd hm List.not_mem_nil⟩
  · decide

end RoundTrip

end GoalRouter
