import GoalRouter.Library.CsvRecord
import GoalRouter.Library.PurePath
import Mathlib.Data.List.DropRight

namespace GoalRouter
open Library
set_option autoImplicit true

abbrev equalsSign : CodePoint := 0x3D

/-- What a `--mount` value denotes. -/
structure Mount where
  type : Text
  source : Text
  target : Text
  isReadOnly : Bool
  deriving DecidableEq

/-- A field's key and, if it has one, its value. -/
def cutField (field : Text) : Text × Option Text :=
  (field.takeWhile (· ≠ equalsSign),
    if equalsSign ∈ field then some (field.dropWhile (· ≠ equalsSign)).tail else none)

def parseBool (value : Text) : Option Bool :=
  if value ∈ ["1", "t", "T", "true", "TRUE", "True"].map text then some true
  else if value ∈ ["0", "f", "F", "false", "FALSE", "False"].map text then some false
  else none

/-- The options of other kinds of mounts, of those that Docker accepts, change none of this. -/
def readField (accepts : Text → Bool) (m : Mount) (field : Text) : Option Mount :=
  match cutField field with
  | (key, some value) =>
    if key = text "type" then some { m with type := value }
    else if key = text "source" ∨ key = text "src" then some { m with source := value }
    else if key = text "target" ∨ key = text "dst" ∨ key = text "destination" then
      some { m with target := value }
    else if key = text "readonly" ∨ key = text "ro" then
      (parseBool value).map fun b => { m with isReadOnly := b }
    else if accepts field then some m else none
  | (key, none) =>
    if key = text "readonly" ∨ key = text "ro" then some { m with isReadOnly := true }
    else if accepts field then some m else none

/-- How Docker reads the value of a `--mount` option. -/
def readMount (accepts : Text → Bool) (value : Text) : Option Mount := do
  let fields ← readRecord value
  let m ← fields.foldlM (readField accepts) ⟨text "volume", [], [], false⟩
  if m.type = [] ∨ m.target = [] then none else some m

/-- What the launcher asks of its host: `pwd -P` in its directory, and after `cd -P` to another. -/
structure LauncherHost where
  isDirectory : Text → Bool
  isFile : Text → Bool
  workingDirectory : Text
  physical : Text → Option Text

/-- What `$(...)` keeps of an output. -/
def commandSubstitution (output : Text) : Text := output.rdropWhile (· = newline)

/-- `"$newline."`, which ends the output of `pwd -P; printf .`. -/
def marker : Text := newline :: text "."

/-- `${value%suffix}` -/
def removeSuffix (suffix value : Text) : Text :=
  if suffix <:+ value then value.take (value.length - suffix.length) else value

def resolveDirectory (host : LauncherHost) (candidate : Text) : Option Text := do
  if !host.isDirectory candidate then none
  let candidate :=
    if candidate.head? = some slash then candidate
    else
      let base := removeSuffix marker (commandSubstitution (host.workingDirectory ++ marker))
      base ++ slash :: candidate
  let path ← host.physical candidate
  let resolved := commandSubstitution (path ++ marker)
  if marker <:+ resolved then some (removeSuffix marker resolved) else none

/-- `${candidate%/*}` and `${candidate##*/}` -/
def splitParent (candidate : Text) : Text × Text :=
  ((candidate.rdropWhile (· ≠ slash)).dropLast, candidate.rtakeWhile (· ≠ slash))

def resolveFile (host : LauncherHost) (candidate : Text) : Option Text := do
  if !host.isFile candidate then none
  let (parent, name) :=
    if slash ∈ candidate then
      let (parent, name) := splitParent candidate
      (if parent = [] then text "/" else parent, name)
    else (text ".", candidate)
  let parent ← resolveDirectory host parent
  if parent = text "/" then some (slash :: name) else some (parent ++ slash :: name)

inductive LauncherAccess where
  | readonly | write | docker
  deriving DecidableEq

inductive AuthMode where
  | existingSession | apiKey
  deriving DecidableEq

/-- The launcher's options, with their defaults filled in. -/
structure LauncherInput where
  project : Text
  config : Text
  state : Text
  codex : Text
  access : LauncherAccess
  authMode : AuthMode

/-- The paths that the launcher mounts. -/
structure MountedPaths where
  project : Text
  config : Text
  state : Text
  codex : Option Text
  deriving DecidableEq

def resolvePaths (host : LauncherHost) (input : LauncherInput) : Option MountedPaths := do
  let project ← resolveDirectory host input.project
  let config ← resolveFile host input.config
  let state ← resolveDirectory host input.state
  match input.authMode with
  | .existingSession =>
    let codex ← resolveDirectory host input.codex
    return ⟨project, config, state, some codex⟩
  | .apiKey => return ⟨project, config, state, none⟩

/-- `type=bind,src=...,dst=...`, for some with `,readonly`. -/
def bindMount (source target : Text) (isReadOnly : Bool) : Text :=
  text "type=bind,src=" ++ source ++ text ",dst=" ++ target ++
    (if isReadOnly then text ",readonly" else [])

def stateMount (paths : MountedPaths) : Text := bindMount paths.state (text "/state") false

def configMount (paths : MountedPaths) : Text :=
  bindMount paths.config (text "/config/task-models.yaml") true

def projectMount (access : LauncherAccess) (paths : MountedPaths) : Text :=
  if access = .readonly then bindMount paths.project (text "/project") true
  else bindMount paths.project (text "/project") false

def codexMount (codex : Text) : Text := bindMount codex (text "/codex-auth") true

/-- The values of the `--mount` options, in the order in which `docker run` gets them. -/
def mountArguments (access : LauncherAccess) (paths : MountedPaths) : List Text :=
  [stateMount paths, configMount paths, projectMount access paths] ++
    paths.codex.toList.map codexMount

/-- What the launcher takes the candidate for: its path from the root. -/
def absolutePath (host : LauncherHost) (candidate : Text) : Text :=
  if candidate.head? = some slash then candidate
  else host.workingDirectory ++ slash :: candidate

/-- The directory's path without symbolic links, as the host has it. -/
def physicalDirectory (host : LauncherHost) (candidate : Text) : Option Text :=
  host.physical (absolutePath host candidate)

/-- The file's name in its directory, by that directory's path without symbolic links. -/
def physicalFile (host : LauncherHost) (candidate : Text) : Option Text :=
  let (parent, name) :=
    if slash ∈ candidate then
      let (parent, name) := splitParent candidate
      (if parent = [] then text "/" else parent, name)
    else (text ".", candidate)
  (physicalDirectory host parent).map fun parent =>
    if parent = text "/" then slash :: name else parent ++ slash :: name

/-- The paths are those that the host has for the launcher's options. -/
structure MountedPaths.OfHost (host : LauncherHost) (input : LauncherInput)
    (paths : MountedPaths) : Prop where
  project : physicalDirectory host input.project = some paths.project
  config : physicalFile host input.config = some paths.config
  state : physicalDirectory host input.state = some paths.state
  codex : match input.authMode with
    | .existingSession => ∃ codex, physicalDirectory host input.codex = some codex ∧
        paths.codex = some codex
    | .apiKey => paths.codex = none

namespace MountedPaths

/-- The paths in the order of the mounts. -/
def all (paths : MountedPaths) : List Text :=
  [paths.state, paths.config, paths.project] ++ paths.codex.toList

end MountedPaths

/-- The mounts that the access and the authentication call for. -/
def intendedMounts (access : LauncherAccess) (paths : MountedPaths) : List Mount :=
  [⟨text "bind", paths.state, text "/state", false⟩,
    ⟨text "bind", paths.config, text "/config/task-models.yaml", true⟩,
    ⟨text "bind", paths.project, text "/project", decide (access = .readonly)⟩] ++
    paths.codex.toList.map fun codex => ⟨text "bind", codex, text "/codex-auth", true⟩

section Resolution

theorem commandSubstitution_marker (path : Text) :
    commandSubstitution (path ++ marker) = path ++ marker := by
  have h : path ++ marker = path ++ [newline] ++ text "." := by simp [marker]
  rw [h, show text "." = [0x2E] from rfl, commandSubstitution,
    List.rdropWhile_concat_neg _ _ _ (by decide)]

theorem removeSuffix_append (suffix path : Text) : removeSuffix suffix (path ++ suffix) = path := by
  rw [removeSuffix, if_pos (List.suffix_append ..), List.length_append, Nat.add_sub_cancel,
    List.take_left]

/-- The marker keeps newlines at a path's end. -/
theorem resolveDirectory_eq (host : LauncherHost) (candidate : Text) :
    resolveDirectory host candidate =
      if host.isDirectory candidate then physicalDirectory host candidate else none := by
  have hs : ∀ path : Text, marker <:+ path ++ marker := fun path => List.suffix_append ..
  cases hd : host.isDirectory candidate with
  | false => simp [resolveDirectory, hd]
  | true =>
    simp only [resolveDirectory, hd, Bool.not_true, commandSubstitution_marker,
      removeSuffix_append, hs, if_true, physicalDirectory, absolutePath]
    cases host.physical _ <;> rfl

theorem resolveDirectory_physical (h : resolveDirectory host candidate = some path) :
    physicalDirectory host candidate = some path := by
  rw [resolveDirectory_eq] at h
  split_ifs at h
  exact h

theorem resolveFile_physical (h : resolveFile host candidate = some path) :
    physicalFile host candidate = some path := by
  obtain hf | hf := Bool.eq_false_or_eq_true (host.isFile candidate)
  · simp only [resolveFile, hf, Bool.not_true] at h
    obtain ⟨parent, hp, hc⟩ := Option.bind_eq_some_iff.1 h
    simp only [physicalFile, resolveDirectory_physical hp, Option.map_some]
    rw [← hc]
    split <;> rfl
  · simp [resolveFile, hf] at h

theorem resolvePaths_ofHost (h : resolvePaths host input = some paths) :
    paths.OfHost host input := by
  obtain ⟨project, hp, h⟩ := Option.bind_eq_some_iff.1 h
  obtain ⟨config, hc, h⟩ := Option.bind_eq_some_iff.1 h
  obtain ⟨state, hs, h⟩ := Option.bind_eq_some_iff.1 h
  cases ha : input.authMode with
  | existingSession =>
    rw [ha] at h
    obtain ⟨codex, hx, h⟩ := Option.bind_eq_some_iff.1 h
    cases h
    constructor
    case codex =>
      rw [ha]
      exact ⟨codex, resolveDirectory_physical hx, rfl⟩
    all_goals first
      | exact resolveDirectory_physical ‹_›
      | exact resolveFile_physical hc
  | apiKey =>
    rw [ha] at h
    cases h
    constructor
    case codex => rw [ha]
    all_goals first
      | exact resolveDirectory_physical ‹_›
      | exact resolveFile_physical hc

end Resolution

section Fields

variable {accepts : Text → Bool} {m m' : Mount}

theorem cutField_append {key : Text} (h : equalsSign ∉ key) (value : Text) :
    cutField (key ++ equalsSign :: value) = (key, some value) := by
  have hk : ∀ c ∈ key, decide (c ≠ equalsSign) = true := fun c hc =>
    decide_eq_true fun he => h (he ▸ hc)
  simp only [cutField, List.takeWhile_append_of_pos hk, List.dropWhile_append_of_pos hk]
  simp

theorem cutField_length (h : cutField field = (key, some value)) :
    value.length < field.length := by
  simp only [cutField, Prod.mk.injEq] at h
  obtain ⟨-, h⟩ := h
  split_ifs at h with he
  cases h
  have hpos : 0 < field.length := List.length_pos_of_mem he
  have hle := (List.dropWhile_suffix (l := field) (· ≠ equalsSign)).length_le
  rw [List.length_tail]
  omega

theorem readField_type (m : Mount) :
    readField accepts m (text "type=bind") = some { m with type := text "bind" } := by
  have hc : cutField (text "type=bind") = (text "type", some (text "bind")) := by decide
  simp only [readField, hc, if_true]

theorem readField_source (m : Mount) (source : Text) :
    readField accepts m (text "src=" ++ source) = some { m with source := source } := by
  have hc : cutField (text "src=" ++ source) = (text "src", some source) :=
    cutField_append (show equalsSign ∉ text "src" by decide) source
  simp only [readField, hc, if_neg (show text "src" ≠ text "type" by decide), or_true, if_true]

theorem readField_target (m : Mount) (target : Text) :
    readField accepts m (text "dst=" ++ target) = some { m with target := target } := by
  have hc : cutField (text "dst=" ++ target) = (text "dst", some target) :=
    cutField_append (show equalsSign ∉ text "dst" by decide) target
  simp only [readField, hc, if_neg (show text "dst" ≠ text "type" by decide),
    if_neg (show ¬(text "dst" = text "source" ∨ text "dst" = text "src") by decide),
    true_or, or_true, if_true]

theorem readField_readonly (m : Mount) :
    readField accepts m (text "readonly") = some { m with isReadOnly := true } := by
  have hc : cutField (text "readonly") = (text "readonly", none) := by decide
  simp only [readField, hc, true_or, if_true]

/-- Only a field with the key of a source changes it, and to less than the field. -/
theorem readField_source_cases (h : readField accepts m field = some m') :
    m'.source = m.source ∨
      m'.source.length < field.length ∧
        ((cutField field).1 = text "source" ∨ (cutField field).1 = text "src") := by
  cases hc : cutField field with
  | mk key value =>
  simp only [readField, hc] at h ⊢
  cases value with
  | none =>
    dsimp only at h
    split_ifs at h
    all_goals
      cases h
      exact .inl rfl
  | some value =>
    dsimp only at h
    have hv := cutField_length hc
    by_cases hs : key = text "source" ∨ key = text "src"
    · have ht : key ≠ text "type" := by
        rintro rfl
        exact absurd hs (by decide)
      rw [if_neg ht, if_pos hs] at h
      cases h
      exact .inr ⟨hv, hs⟩
    · simp only [if_neg hs] at h
      left
      split_ifs at h
      case pos => cases h; rfl
      case pos => cases h; rfl
      case pos =>
        obtain ⟨b, -, rfl⟩ := Option.map_eq_some_iff.1 h
        rfl
      case pos => cases h; rfl

end Fields

section Reading

variable {accepts : Text → Bool} {m m' : Mount} {fields : List Text} {path target : Text}

/-- What a bind mount has after its source. -/
def mountTail (target : Text) (isReadOnly : Bool) : Text :=
  text "dst=" ++ target ++ (if isReadOnly then text ",readonly" else [])

def tailFields (target : Text) (isReadOnly : Bool) : List Text :=
  (text "dst=" ++ target) :: (if isReadOnly then [text "readonly"] else [])

theorem bindMount_eq (path target : Text) (isReadOnly : Bool) :
    bindMount path target isReadOnly = text "type=bind" ++
      comma :: (text "src=" ++ path ++ comma :: mountTail target isReadOnly) := by
  have hb : text "type=bind,src=" = text "type=bind" ++ comma :: text "src=" := by decide
  have hd : text ",dst=" = comma :: text "dst=" := by decide
  simp only [bindMount, mountTail, hb, hd, List.append_assoc, List.cons_append]

theorem readRecord_mountTail (ht : ∀ c ∈ target, isFieldChar c = true) (isReadOnly : Bool) :
    readRecord (mountTail target isReadOnly) = some (tailFields target isReadOnly) := by
  have hd : ∀ c ∈ text "dst=" ++ target, isFieldChar c = true := by
    intro c hc
    rcases List.mem_append.1 hc with hc | hc
    · exact List.all_eq_true.1 (show (text "dst=").all isFieldChar = true by decide) c hc
    · exact ht c hc
  cases isReadOnly with
  | false =>
    have he := readRecord_end hd
    simpa only [mountTail, tailFields, Bool.false_eq_true, if_false, List.append_nil] using he
  | true =>
    have hr : text ",readonly" = comma :: text "readonly" := by decide
    have he : readRecord (text "readonly") = some [text "readonly"] :=
      readRecord_end (List.all_eq_true.1 (by decide))
    have hc := readRecord_comma hd (text "readonly")
    rw [he, Option.map_some] at hc
    simpa only [mountTail, tailFields, if_true, hr] using hc

theorem foldlM_tailFields (m : Mount) (target : Text) (isReadOnly : Bool) :
    (tailFields target isReadOnly).foldlM (readField accepts) m =
      some { m with target := target, isReadOnly := m.isReadOnly || isReadOnly } := by
  cases isReadOnly with
  | false => simp [tailFields, readField_target]
  | true => simp [tailFields, readField_target, readField_readonly]

theorem readRecord_kind (rest : Text) :
    readRecord (text "type=bind" ++ comma :: rest) =
      (readRecord rest).map (text "type=bind" :: ·) :=
  readRecord_comma (List.all_eq_true.1 (by decide)) rest

theorem forall_source (hw : ∀ c ∈ w, isFieldChar c = true) :
    ∀ c ∈ text "src=" ++ w, isFieldChar c = true := by
  intro c hc
  rcases List.mem_append.1 hc with hc | hc
  · exact List.all_eq_true.1 (show (text "src=").all isFieldChar = true by decide) c hc
  · exact hw c hc

theorem readMount_bindMount (hp : ∀ c ∈ path, isFieldChar c = true)
    (ht : ∀ c ∈ target, isFieldChar c = true) (hne : target ≠ []) (isReadOnly : Bool) :
    readMount accepts (bindMount path target isReadOnly) =
      some ⟨text "bind", path, target, isReadOnly⟩ := by
  have hr : readRecord (bindMount path target isReadOnly) =
      some (text "type=bind" :: (text "src=" ++ path) :: tailFields target isReadOnly) := by
    rw [bindMount_eq, readRecord_kind, readRecord_comma (forall_source hp),
      readRecord_mountTail ht]
    rfl
  have hb : text "bind" ≠ [] := by decide
  simp only [readMount, hr, Option.bind_eq_bind, Option.bind_some, List.foldlM_cons,
    readField_type, readField_source, foldlM_tailFields, Bool.false_or, hb, hne, or_self, if_false]

theorem foldlM_source_lt (h : fields.foldlM (readField accepts) m = some m')
    (hm : m.source.length < n) (hf : ∀ field ∈ fields, field.length ≤ n) :
    m'.source.length < n := by
  induction fields generalizing m with
  | nil =>
    cases h
    exact hm
  | cons field fields ih =>
    obtain ⟨m₁, h₁, h⟩ := Option.bind_eq_some_iff.1 h
    have hfield := hf field List.mem_cons_self
    apply ih h _ fun f hmem => hf f (List.mem_cons_of_mem _ hmem)
    rcases readField_source_cases h₁ with hs | ⟨hs, -⟩
    · rw [hs]
      exact hm
    · omega

theorem quotationMark_not_mem_mountTail (ht : ∀ c ∈ target, isFieldChar c = true)
    (isReadOnly : Bool) : quotationMark ∉ mountTail target isReadOnly := by
  have hq : quotationMark ∉ target := fun h => absurd (ht _ h) (by decide)
  have hd : quotationMark ∉ text "dst=" := by decide
  have hr : quotationMark ∉ text ",readonly" := by decide
  cases isReadOnly <;> simp [mountTail, hq, hd, hr]

/-- After a comma in the path, no field gives the whole path. -/
theorem readMount_comma (hw : ∀ c ∈ w, isFieldChar c = true)
    (ht : ∀ c ∈ target, isFieldChar c = true) {isReadOnly : Bool}
    (h : readMount accepts (bindMount (w ++ comma :: rest) target isReadOnly) = some m) :
    m.source.length < (w ++ comma :: rest).length := by
  have hsplit : text "src=" ++ (w ++ comma :: rest) ++ comma :: mountTail target isReadOnly =
      text "src=" ++ w ++ comma :: (rest ++ comma :: mountTail target isReadOnly) := by
    simp only [List.append_assoc, List.cons_append]
  rw [readMount, bindMount_eq, readRecord_kind, hsplit, readRecord_comma (forall_source hw)] at h
  obtain ⟨fields, hread, h⟩ := Option.bind_eq_some_iff.1 h
  simp only [Option.map_map, Option.map_eq_some_iff, Function.comp_apply] at hread
  obtain ⟨fields, hread, rfl⟩ := hread
  obtain ⟨m', hfold, h⟩ := Option.bind_eq_some_iff.1 h
  split_ifs at h
  cases h
  simp only [List.foldlM_cons, readField_type, readField_source, Option.bind_eq_bind,
    Option.bind_some] at hfold
  obtain ⟨first, last, rfl, hfirst, hlast⟩ :=
    readFields_append (quotationMark_not_mem_mountTail ht isReadOnly) hread
  rw [List.foldlM_append] at hfold
  obtain ⟨m₁, h₁, h₂⟩ := Option.bind_eq_some_iff.1 hfold
  have hlt : m₁.source.length < (w ++ comma :: rest).length := by
    apply foldlM_source_lt h₁
    · simp
    · intro field hfield
      have := hfirst field hfield
      simp only [CsvState.field, List.length_nil] at this
      simp only [List.length_append, List.length_cons]
      omega
  rcases hlast with rfl | hlast
  · cases h₂
    exact hlt
  · rw [readRecord_mountTail ht] at hlast
    cases hlast
    rw [foldlM_tailFields] at h₂
    cases h₂
    exact hlt

/-- Read as Docker does, the mount is of the path, at the target and with the mode. -/
theorem readMount_bindMount_iff (ht : ∀ c ∈ target, isFieldChar c = true) (hne : target ≠ [])
    (isReadOnly : Bool) :
    readMount accepts (bindMount path target isReadOnly) =
      some ⟨text "bind", path, target, isReadOnly⟩ ↔ ∀ c ∈ path, isFieldChar c = true := by
  refine ⟨fun h => ?_, fun h => readMount_bindMount h ht hne isReadOnly⟩
  by_contra hp
  obtain ⟨w, c, rest, rfl, hw, hc⟩ := exists_first_special hp
  have hsplit : text "src=" ++ (w ++ c :: rest) ++ comma :: mountTail target isReadOnly =
      text "src=" ++ w ++ c :: (rest ++ comma :: mountTail target isReadOnly) := by
    simp only [List.append_assoc, List.cons_append]
  rcases isFieldChar_eq_false hc with rfl | rfl | rfl
  · exact Nat.lt_irrefl _ (readMount_comma hw ht h)
  · -- The line ends before the target.
    rw [readMount, bindMount_eq, readRecord_kind, hsplit,
      readRecord_newline (forall_source hw)] at h
    simp [readField_type, readField_source] at h
  · have hne : text "src=" ++ w ≠ [] := by simp [text]
    rw [readMount, bindMount_eq, readRecord_kind, hsplit,
      readRecord_quotationMark (forall_source hw) hne] at h
    cases h

end Reading

section Launch

variable {host : LauncherHost} {input : LauncherInput} {paths : MountedPaths}

theorem readMount_state_iff (accepts : Text → Bool) (paths : MountedPaths) :
    readMount accepts (stateMount paths) =
      some ⟨text "bind", paths.state, text "/state", false⟩ ↔
        ∀ c ∈ paths.state, isFieldChar c = true :=
  readMount_bindMount_iff (List.all_eq_true.1 (by decide)) (by decide) false

theorem readMount_config_iff (accepts : Text → Bool) (paths : MountedPaths) :
    readMount accepts (configMount paths) =
      some ⟨text "bind", paths.config, text "/config/task-models.yaml", true⟩ ↔
        ∀ c ∈ paths.config, isFieldChar c = true :=
  readMount_bindMount_iff (List.all_eq_true.1 (by decide)) (by decide) true

theorem readMount_project_iff (accepts : Text → Bool) (access : LauncherAccess)
    (paths : MountedPaths) :
    readMount accepts (projectMount access paths) =
      some ⟨text "bind", paths.project, text "/project", decide (access = .readonly)⟩ ↔
        ∀ c ∈ paths.project, isFieldChar c = true := by
  have hp : ∀ c ∈ text "/project", isFieldChar c = true := List.all_eq_true.1 (by decide)
  by_cases ha : access = .readonly
  · rw [projectMount, if_pos ha, decide_eq_true ha]
    exact readMount_bindMount_iff hp (by decide) true
  · rw [projectMount, if_neg ha, decide_eq_false ha]
    exact readMount_bindMount_iff hp (by decide) false

theorem readMount_codex_iff (accepts : Text → Bool) (codex : Text) :
    readMount accepts (codexMount codex) =
      some ⟨text "bind", codex, text "/codex-auth", true⟩ ↔ ∀ c ∈ codex, isFieldChar c = true :=
  readMount_bindMount_iff (List.all_eq_true.1 (by decide)) (by decide) true

/-- What `docker run` gets denotes exactly the intended mounts of the physical paths, if and only
if no mounted path has a comma, a quotation mark or a newline. -/
theorem mounts_asIntended_iff (accepts : Text → Bool)
    (h : resolvePaths host input = some paths) :
    paths.OfHost host input ∧
      ((mountArguments input.access paths).map (readMount accepts) =
          (intendedMounts input.access paths).map some ↔
        ∀ path ∈ paths.all, ∀ c ∈ path, isFieldChar c = true) := by
  refine ⟨resolvePaths_ofHost h, ?_⟩
  cases hx : paths.codex with
  | none =>
    simp [mountArguments, intendedMounts, MountedPaths.all, hx, readMount_state_iff,
      readMount_config_iff, readMount_project_iff]
  | some codex =>
    simp [mountArguments, intendedMounts, MountedPaths.all, hx, readMount_state_iff,
      readMount_config_iff, readMount_project_iff, readMount_codex_iff]

/-- A host on which every path is there, and is its own physical path. -/
def plainHost : LauncherHost := ⟨fun _ => true, fun _ => true, text "/home/me", some⟩

/-- A project in the working directory. -/
def plainInput (project : Text) : LauncherInput where
  project := project
  config := text "/home/me/config/task-models.yaml"
  state := text "/home/me/state"
  codex := text "/home/me/.codex"
  access := .readonly
  authMode := .existingSession

theorem mounts_asIntended_iff_sample :
    ∃ paths, resolvePaths plainHost (plainInput (text "work")) = some paths ∧
      paths.project = text "/home/me/work" ∧
      ((mountArguments .readonly paths).map (readMount fun _ => false) =
          (intendedMounts .readonly paths).map some ↔
        ∀ path ∈ paths.all, ∀ c ∈ path, isFieldChar c = true) := by
  obtain ⟨paths, hp, hproject⟩ : ∃ paths,
      resolvePaths plainHost (plainInput (text "work")) = some paths ∧
        paths.project = text "/home/me/work" :=
    ⟨⟨text "/home/me/work", text "/home/me/config/task-models.yaml", text "/home/me/state",
      some (text "/home/me/.codex")⟩, by decide +kernel⟩
  exact ⟨paths, hp, hproject, (mounts_asIntended_iff (fun _ => false) hp).2⟩

/-- The path of a project can have Docker mount another directory, and let it be written. -/
theorem readonly_project_mounted_writable :
    ∃ paths, resolvePaths plainHost (plainInput (text "work,dst=/project\n")) = some paths ∧
      paths.project = text "/home/me/work,dst=/project\n" ∧
      readMount (fun _ => false) (projectMount .readonly paths) =
        some ⟨text "bind", text "/home/me/work", text "/project", false⟩ ∧
      (mountArguments .readonly paths).map (readMount fun _ => false) ≠
        (intendedMounts .readonly paths).map some :=
  ⟨⟨text "/home/me/work,dst=/project\n", text "/home/me/config/task-models.yaml",
    text "/home/me/state", some (text "/home/me/.codex")⟩, by decide +kernel⟩

end Launch

end GoalRouter
