import GoalRouter.Installation
import GoalRouter.LauncherMounts
import GoalRouter.Library.PathText

namespace GoalRouter
open Library
set_option autoImplicit true

/-- What `install.sh` asks of the file system about a destination. -/
structure DestinationHost where
  pathExists : Text → Bool
  isSymlink : Text → Bool
  isDirectory : Text → Bool
  isWritable : Text → Bool
  /-- `cd -P && pwd -P` -/
  physical : Text → Option Text
  /-- Owned by the invoking user. -/
  isOwned : Text → Bool
  /-- Writable by its group or by others. -/
  isShared : Text → Bool

/-- `[ ... ] || fail message` -/
def orFail (condition : Bool) (message : Text) : Except Text Unit :=
  if condition then .ok () else .error message

/-- The nearest ancestor that exists, `none` where there is none. -/
def existingAncestor (host : DestinationHost) : Nat → Text → Option Text
  | 0, _ => none
  | fuel + 1, ancestor =>
    if host.pathExists ancestor then some ancestor
    else
      let next := recordedParent ancestor
      if next = ancestor then none else existingAncestor host fuel next

def checkDestination (host : DestinationHost) (home destination label : Text) :
    Except Text Unit := do
  orFail (validPath destination) (text "invalid " ++ label ++ text " path")
  orFail (destination ≠ text "/") (label ++ text " cannot be root")
  orFail (destination ≠ home) (label ++ text " cannot be HOME")
  orFail (!host.isSymlink destination) (label ++ text " cannot be a symbolic link")
  match existingAncestor host (destination.length + 1) destination with
  | none => .error (text "cannot resolve " ++ label ++ text " parent")
  | some ancestor => do
    orFail (host.isDirectory ancestor) (label ++ text " parent is not a directory: " ++ ancestor)
    orFail (!host.isSymlink ancestor) (label ++ text " parent cannot be a symbolic link")
    orFail (host.isWritable ancestor) (label ++ text " parent is not writable: " ++ ancestor)
    match host.physical ancestor with
    | none => .error (text "cannot resolve " ++ label ++ text " parent: " ++ ancestor)
    | some physicalAncestor => do
      orFail (physicalAncestor = ancestor) (label ++ text " parent contains a symbolic-link escape")
      orFail (host.isOwned ancestor) (label ++ text " parent is not owned by the invoking user")
      orFail (!host.isShared ancestor) (label ++ text " parent cannot be group/world writable")

/-- The file that marks an uninstall that is under way. -/
def uninstallMarker : Text := text ".uninstalling"

/-- The checks of `install.sh` on HOME and on the paths it records. -/
def checkInstallPaths (host : DestinationHost) (i : Installation) : Except Text Unit := do
  orFail (i.home ≠ []) (text "HOME is required")
  orFail (validPath i.home) (text "HOME must be an absolute printable path")
  orFail (i.home ≠ text "/") (text "HOME cannot be root")
  orFail (host.isDirectory i.home) (text "HOME does not exist")
  orFail (!host.isSymlink i.home) (text "HOME cannot be a symbolic link")
  checkDestination host i.home i.binDir (text "bin directory")
  checkDestination host i.home i.configDir (text "config directory")
  checkDestination host i.home i.stateDir (text "state directory")
  checkDestination host i.home i.controlDir (text "control directory")
  let marker := i.controlDir ++ slash :: uninstallMarker
  orFail (!host.pathExists marker && !host.isSymlink marker)
    (text "an uninstall recovery is active; resume uninstall before installing")
  orFail (validPath i.codexHome) (text "invalid Codex home path")
  orFail (i.configDir ≠ i.configRoot) (text "config directory cannot be the XDG config root")
  orFail (i.stateDir ≠ i.stateRoot) (text "state directory cannot be the XDG state root")
  orFail (!pathsOverlap i.binDir i.configDir) (text "bin and config directories overlap")
  orFail (!pathsOverlap i.binDir i.stateDir) (text "bin and state directories overlap")
  orFail (!pathsOverlap i.configDir i.stateDir) (text "config and state directories overlap")

/-- HOME and the XDG roots that `uninstall.sh` runs with. -/
structure Environment where
  home : Text
  configRoot : Text
  stateRoot : Text

/-- `read_owned`, on the fields as the installer wrote them. -/
def readOwned (i : Installation) (name : Text) : Except Text Text :=
  match i.fields.lookup name with
  | none => .error (text "missing or unsafe ownership field: " ++ name)
  | some content => do
    let value := commandSubstitution content
    orFail (validText value) (text "invalid ownership field: " ++ name)
    return value

structure OwnedPaths where
  home : Text
  binDir : Text
  configDir : Text
  stateDir : Text
  launcher : Text
  installer : Text
  uninstaller : Text
  configRoot : Text
  stateRoot : Text
  configParent : Text
  stateParent : Text
  binParent : Text

def readOwnedPaths (i : Installation) : Except Text OwnedPaths := do
  return {
    home := ← readOwned i (text "owned-home")
    binDir := ← readOwned i (text "owned-bin-dir")
    configDir := ← readOwned i (text "owned-config-dir")
    stateDir := ← readOwned i (text "owned-state-dir")
    launcher := ← readOwned i (text "owned-launcher")
    installer := ← readOwned i (text "owned-installer")
    uninstaller := ← readOwned i (text "owned-uninstaller")
    configRoot := ← readOwned i (text "guard-config-root")
    stateRoot := ← readOwned i (text "guard-state-root")
    configParent := ← readOwned i (text "guard-config-parent")
    stateParent := ← readOwned i (text "guard-state-parent")
    binParent := ← readOwned i (text "guard-bin-parent") }

/-- The checks on the owned paths; the uninstaller is in the directory `trustedBin`. -/
def checkOwnedPaths (env : Environment) (trustedBin : Text) (owned : OwnedPaths) :
    Except Text Unit := do
  orFail (owned.home = env.home) (text "current HOME does not match installation ownership")
  orFail ([owned.binDir, owned.configDir, owned.stateDir, owned.launcher, owned.installer,
      owned.uninstaller, owned.configRoot, owned.stateRoot, owned.configParent, owned.stateParent,
      owned.binParent].all validPath)
    (text "ownership metadata contains an unsafe path")
  orFail (owned.launcher = owned.binDir ++ text "/goalrouter" &&
      owned.installer = owned.binDir ++ text "/goalrouter-install" &&
      owned.uninstaller = owned.binDir ++ text "/goalrouter-uninstall")
    (text "owned lifecycle paths are inconsistent")
  orFail (owned.binDir = trustedBin) (text "trusted bin ownership is inconsistent")
  orFail (owned.configParent = beforeSlash owned.configDir)
    (text "owned config parent is inconsistent")
  orFail (owned.stateParent = beforeSlash owned.stateDir)
    (text "owned state parent is inconsistent")
  orFail (owned.binParent = beforeSlash owned.binDir) (text "owned bin parent is inconsistent")

/-- The guards of one of the directories to be purged. -/
def checkPurgeTarget (owned : OwnedPaths) (target : Text) : Except Text Unit := do
  orFail (target ≠ text "/") (text "refusing to purge root")
  orFail (target ≠ owned.home) (text "refusing to purge HOME")
  orFail (target ≠ owned.configRoot) (text "refusing to purge XDG config root")
  orFail (target ≠ owned.stateRoot) (text "refusing to purge XDG state root")
  orFail (target ≠ owned.configParent) (text "refusing to purge config parent")
  orFail (target ≠ owned.stateParent) (text "refusing to purge state parent")
  orFail (target ≠ owned.binDir) (text "refusing to purge bin directory")
  orFail (target ≠ owned.binParent) (text "refusing to purge bin parent")
  orFail (target ≠ beforeSlash owned.configDir) (text "refusing broad config purge")
  orFail (target ≠ beforeSlash owned.stateDir) (text "refusing broad state purge")

def checkPurgePaths (env : Environment) (owned : OwnedPaths) : Except Text Unit := do
  orFail (owned.configRoot = env.configRoot) (text "XDG config ownership is inconsistent")
  orFail (owned.stateRoot = env.stateRoot) (text "XDG state ownership is inconsistent")
  checkPurgeTarget owned owned.configDir
  checkPurgeTarget owned owned.stateDir
  orFail (!pathsOverlap owned.configDir owned.stateDir) (text "refusing overlapping purge targets")

/-- Everything that `uninstall.sh` checks of the environment and of the recorded paths. -/
def checkUninstallPaths (env : Environment) (i : Installation) (purge : Bool) :
    Except Text Unit := do
  orFail (validPath env.home) (text "HOME must be an absolute printable path")
  orFail (env.home ≠ text "/") (text "HOME cannot be root")
  let owned ← readOwnedPaths i
  checkOwnedPaths env i.binDir owned
  if purge then checkPurgePaths env owned else .ok ()

section Ok

theorem orFail_ok {condition : Bool} {message : Text} :
    orFail condition message = .ok () ↔ condition = true := by
  rw [orFail]
  cases condition <;> simp

theorem check_bind_ok {x : Except Text Unit} {f : Unit → Except Text α} :
    (x >>= f) = .ok a ↔ x = .ok () ∧ f () = .ok a := by
  cases x with
  | ok u => exact (and_iff_right rfl).symm
  | error e => exact iff_of_false nofun fun h => nomatch h.1

end Ok

section Paths

variable {s d a b name : Text}

theorem validText_iff : validText s = true ↔ s ≠ [] ∧ ∀ c ∈ s, 0x20 ≤ c.val ∧ c.val ≤ 0x7E := by
  simp [validText]

theorem validText_append (ha : validText a = true) (hb : ∀ c ∈ b, 0x20 ≤ c.val ∧ c.val ≤ 0x7E) :
    validText (a ++ b) = true := by
  obtain ⟨hne, hall⟩ := validText_iff.1 ha
  exact validText_iff.2 ⟨fun he => hne (List.append_eq_nil_iff.1 he).1,
    List.forall_mem_append.2 ⟨hall, hb⟩⟩

theorem commandSubstitution_eq (h : validText s = true) : commandSubstitution s = s := by
  rw [commandSubstitution, List.rdropWhile_eq_self_iff]
  intro hne he
  have hlast := (validText_iff.1 h).2 _ (List.getLast_mem hne)
  rw [of_decide_eq_true he] at hlast
  exact absurd hlast (by decide)

/-- A part of a path that `valid_path` accepts. -/
def plainPart (p : Text) : Prop := p ≠ [] ∧ p ≠ text "." ∧ p ≠ text ".."

theorem validPath_iff : validPath s = true ↔
    validText s = true ∧ text "/" <+: s ∧ ∀ p ∈ (s.splitOn slash).tail, plainPart p := by
  have hparts (p : Text) (hp : slash ∉ p) : slash :: (p ++ [slash]) <:+: s ++ text "/" ↔
      p ∈ (s.splitOn slash).tail := between_slashes_iff hp
  have hup := hparts (text "..") (by decide)
  have hhere := hparts (text ".") (by decide)
  have hempty := hparts [] List.not_mem_nil
  have hpatterns : text "/../" = slash :: (text ".." ++ [slash]) ∧
      text "/./" = slash :: (text "." ++ [slash]) ∧ text "//" = slash :: ([] ++ [slash]) := by
    decide
  rw [validPath, hpatterns.1, hpatterns.2.1, hpatterns.2.2]
  simp only [Bool.and_eq_true, decide_eq_true_eq, Bool.not_eq_true', Bool.or_eq_false_iff,
    decide_eq_false_iff_not, hup, hhere, hempty, and_assoc]
  refine and_congr_right fun _ => and_congr_right fun _ => ⟨fun h p hp => ?_, fun h => ?_⟩
  · refine ⟨?_, ?_, ?_⟩
    · rintro rfl
      exact h.2.2 hp
    · rintro rfl
      exact h.2.1 hp
    · rintro rfl
      exact h.1 hp
  · exact ⟨fun hp => (h _ hp).2.2 rfl, fun hp => (h _ hp).2.1 rfl, fun hp => (h _ hp).1 rfl⟩

theorem validPath_child (h : validPath d = true) (hn : validText name = true) (hs : slash ∉ name)
    (hp : plainPart name) : validPath (d ++ slash :: name) = true := by
  obtain ⟨ht, hroot, hparts⟩ := validPath_iff.1 h
  refine validPath_iff.2 ⟨validText_append ht ?_, hroot.trans (List.prefix_append d _), ?_⟩
  · exact List.forall_mem_cons.2 ⟨by decide, (validText_iff.1 hn).2⟩
  · intro p hm
    rw [List.splitOn_append_cons_self, List.splitOn_eq_singleton hs,
      List.tail_append_of_ne_nil (List.splitOn_ne_nil _ _)] at hm
    rcases List.mem_append.1 hm with hm | hm
    · exact hparts p hm
    · rwa [List.mem_singleton.1 hm]

theorem beforeSlash_eq (hb : slash ∉ b) : beforeSlash (a ++ slash :: b) = a := by
  have hr : (a ++ slash :: b).reverse.dropWhile (· != 0x2f) = slash :: a.reverse := by
    rw [List.reverse_append, List.reverse_cons, List.append_assoc,
      List.dropWhile_append_of_pos]
    · rfl
    · intro c hc
      rw [bne_iff_ne]
      rintro rfl
      exact hb (List.mem_reverse.1 hc)
  rw [beforeSlash, hr]
  exact List.reverse_reverse a

theorem exists_beforeSlash (h : validPath d = true) :
    ∃ name, d = beforeSlash d ++ slash :: name ∧ slash ∉ name := by
  obtain ⟨_, hroot, _⟩ := validPath_iff.1 h
  have hs : slash ∈ d := hroot.subset (List.mem_singleton_self _)
  obtain ⟨a, b, rfl, hb⟩ := exists_last hs
  exact ⟨b, by rw [beforeSlash_eq hb], hb⟩

theorem validPath_beforeSlash (h : validPath d = true) (hne : beforeSlash d ≠ []) :
    validPath (beforeSlash d) = true := by
  obtain ⟨name, hd, hs⟩ := exists_beforeSlash h
  obtain ⟨ht, hroot, hparts⟩ := validPath_iff.1 h
  generalize beforeSlash d = a at hd hne
  subst hd
  refine validPath_iff.2 ⟨?_, ?_, fun p hp => hparts p ?_⟩
  · obtain ⟨_, hall⟩ := validText_iff.1 ht
    exact validText_iff.2 ⟨hne, fun c hc => hall c (List.mem_append_left _ hc)⟩
  · obtain ⟨c, l, rfl⟩ := List.exists_cons_of_ne_nil hne
    rw [List.cons_append] at hroot
    obtain ⟨u, hu⟩ := hroot
    cases hu
    exact ⟨l, rfl⟩
  · rw [List.splitOn_append_cons_self, List.tail_append_of_ne_nil (List.splitOn_ne_nil _ _)]
    exact List.mem_append_left _ hp

theorem not_validPath_root : validPath (text "/") = false := by decide +kernel

theorem validPath_recordedParent (h : validPath d = true) :
    validPath (recordedParent d) = true ↔ beforeSlash d ≠ [] := by
  rw [recordedParent]
  split
  · rename_i he
    rw [not_validPath_root]
    exact iff_of_false Bool.false_ne_true (not_not.2 he)
  · rename_i hne
    exact iff_of_true (validPath_beforeSlash h hne) hne

end Paths

/-- What the installer's checks tell about the paths it records. -/
structure AcceptedPaths (i : Installation) : Prop where
  home : validPath i.home = true
  homeRoot : i.home ≠ text "/"
  bin : validPath i.binDir = true
  config : validPath i.configDir = true
  state : validPath i.stateDir = true
  codex : validPath i.codexHome = true
  configHome : i.configDir ≠ i.home
  stateHome : i.stateDir ≠ i.home
  configRoot : i.configDir ≠ i.configRoot
  stateRoot : i.stateDir ≠ i.stateRoot
  binConfig : pathsOverlap i.binDir i.configDir = false
  binState : pathsOverlap i.binDir i.stateDir = false
  configState : pathsOverlap i.configDir i.stateDir = false

section Accepted

variable {host : DestinationHost} {i : Installation} {env : Environment}

theorem checkDestination_ok {home destination label : Text}
    (h : checkDestination host home destination label = .ok ()) :
    validPath destination = true ∧ destination ≠ home := by
  rw [checkDestination] at h
  simp only [check_bind_ok, orFail_ok, decide_eq_true_eq] at h
  exact ⟨h.1, h.2.2.1⟩

theorem checkInstallPaths_ok (h : checkInstallPaths host i = .ok ()) : AcceptedPaths i := by
  rw [checkInstallPaths] at h
  simp only [check_bind_ok, orFail_ok, decide_eq_true_eq, Bool.not_eq_true'] at h
  obtain ⟨_, hhome, hroot, _, _, hbin, hconfig, hstate, _, _, hcodex, hconfigRoot, hstateRoot,
    hbinConfig, hbinState, hconfigState⟩ := h
  obtain ⟨hbin, _⟩ := checkDestination_ok hbin
  obtain ⟨hconfig, hconfigHome⟩ := checkDestination_ok hconfig
  obtain ⟨hstate, hstateHome⟩ := checkDestination_ok hstate
  exact ⟨hhome, hroot, hbin, hconfig, hstate, hcodex, hconfigHome, hstateHome, hconfigRoot,
    hstateRoot, hbinConfig, hbinState, hconfigState⟩

/-- What the uninstaller reads back. -/
def Installation.ownedPaths (i : Installation) : OwnedPaths where
  home := i.home
  binDir := i.binDir
  configDir := i.configDir
  stateDir := i.stateDir
  launcher := i.binDir ++ text "/goalrouter"
  installer := i.binDir ++ text "/goalrouter-install"
  uninstaller := i.binDir ++ text "/goalrouter-uninstall"
  configRoot := commandSubstitution i.configRoot
  stateRoot := commandSubstitution i.stateRoot
  configParent := recordedParent i.configDir
  stateParent := recordedParent i.stateDir
  binParent := recordedParent i.binDir

theorem readOwned_valid {name content : Text} (hl : i.fields.lookup name = some content)
    (hv : validText content = true) : readOwned i name = .ok content := by
  rw [readOwned, hl]
  dsimp only
  rw [commandSubstitution_eq hv, orFail, if_pos hv]
  rfl

theorem readOwned_bind_ok {name content : Text} {f : Text → Except Text α}
    (hl : i.fields.lookup name = some content) :
    (readOwned i name >>= f) = .ok a ↔
      validText (commandSubstitution content) = true ∧ f (commandSubstitution content) = .ok a := by
  rw [readOwned, hl]
  dsimp only
  cases validText (commandSubstitution content) with
  | true => exact (and_iff_right rfl).symm
  | false => exact iff_of_false nofun fun h => Bool.false_ne_true h.1

theorem validText_of_path {s : Text} (h : validPath s = true) : validText s = true :=
  (validPath_iff.1 h).1

theorem validText_recordedParent {d : Text} (h : validPath d = true) :
    validText (recordedParent d) = true := by
  rw [recordedParent]
  split
  · decide +kernel
  · rename_i hne
    exact validText_of_path (validPath_beforeSlash h hne)

theorem readOwned_valid_bind {name content : Text} {f : Text → Except Text α}
    (hl : i.fields.lookup name = some content) (hv : validText content = true) :
    (readOwned i name >>= f) = f content := by
  rw [readOwned_valid hl hv]
  rfl

theorem readOwnedPaths_bind_ok (h : AcceptedPaths i) {f : OwnedPaths → Except Text α} :
    (readOwnedPaths i >>= f) = .ok a ↔
      validText (commandSubstitution i.configRoot) = true ∧
        validText (commandSubstitution i.stateRoot) = true ∧ f i.ownedPaths = .ok a := by
  have hchild {name : Text} (hn : validText (text "/" ++ name) = true) :
      validText (i.binDir ++ (text "/" ++ name)) = true :=
    validText_append (validText_of_path h.bin) (validText_iff.1 hn).2
  have hread (name content : Text) (hl : i.fields.lookup name = some content)
      (hv : validText content = true) (f : Text → Except Text α) :
      (readOwned i name >>= f) = f content := readOwned_valid_bind hl hv
  have hopen (name content : Text) (hl : i.fields.lookup name = some content)
      (f : Text → Except Text α) : (readOwned i name >>= f) = .ok a ↔
        validText (commandSubstitution content) = true ∧ f (commandSubstitution content) = .ok a :=
    readOwned_bind_ok hl
  rw [readOwnedPaths]
  simp only [bind_assoc, pure_bind]
  rw [hread (text "owned-home") _ rfl (validText_of_path h.home),
    hread (text "owned-bin-dir") _ rfl (validText_of_path h.bin),
    hread (text "owned-config-dir") _ rfl (validText_of_path h.config),
    hread (text "owned-state-dir") _ rfl (validText_of_path h.state),
    hread (text "owned-launcher") _ rfl (hchild (by decide +kernel)),
    hread (text "owned-installer") _ rfl (hchild (by decide +kernel)),
    hread (text "owned-uninstaller") _ rfl (hchild (by decide +kernel)),
    hopen (text "guard-config-root") _ rfl]
  refine and_congr_right fun _ => ?_
  rw [hopen (text "guard-state-root") _ rfl]
  refine and_congr_right fun _ => ?_
  rw [hread (text "guard-config-parent") _ rfl (validText_recordedParent h.config),
    hread (text "guard-state-parent") _ rfl (validText_recordedParent h.state),
    hread (text "guard-bin-parent") _ rfl (validText_recordedParent h.bin)]
  rfl

/-- The recorded paths that the uninstaller does not refuse in either mode: no directory right below
the root, and XDG roots that are valid paths. -/
structure Uninstallable (i : Installation) : Prop where
  binParent : beforeSlash i.binDir ≠ []
  configParent : beforeSlash i.configDir ≠ []
  stateParent : beforeSlash i.stateDir ≠ []
  configRoot : validPath (commandSubstitution i.configRoot) = true
  stateRoot : validPath (commandSubstitution i.stateRoot) = true

/-- A directory that is not one of the XDG roots. -/
def NotXdgRoot (i : Installation) (d : Text) : Prop :=
  d ≠ commandSubstitution i.configRoot ∧ d ≠ commandSubstitution i.stateRoot

theorem recordedParent_eq_iff (d : Text) :
    recordedParent d = beforeSlash d ↔ beforeSlash d ≠ [] := by
  rw [recordedParent]
  split
  · rename_i he
    rw [he]
    exact iff_of_false (by decide) (not_not.2 rfl)
  · rename_i hne
    exact iff_of_true rfl hne

theorem pathsOverlap_beforeSlash {d : Text} (h : validPath d = true) :
    pathsOverlap (beforeSlash d) d = true := by
  obtain ⟨name, hd, _⟩ := exists_beforeSlash h
  have hpre : beforeSlash d ++ text "/" <+: d := ⟨name, by
    conv_rhs => rw [hd]
    rw [List.append_assoc]
    rfl⟩
  simp only [pathsOverlap, hpre, decide_true, Bool.or_true]

theorem pathsOverlap_self (d : Text) : pathsOverlap d d = true := by
  rw [pathsOverlap, decide_eq_true rfl]
  rfl

theorem pathsOverlap_comm (a b : Text) : pathsOverlap a b = pathsOverlap b a := by
  rw [pathsOverlap, pathsOverlap, Bool.or_assoc, Bool.or_assoc,
    Bool.or_comm (decide (b ++ _ <+: a)), decide_eq_decide.2 (eq_comm (a := a) (b := b))]

theorem ne_of_disjoint {a b c : Text} (h : pathsOverlap a b = false)
    (hc : pathsOverlap c b = true) :
    a ≠ c := by
  rintro rfl
  rw [h] at hc
  cases hc

theorem beforeSlash_ne {d : Text} (h : validPath d = true) : d ≠ beforeSlash d := by
  obtain ⟨name, hd, _⟩ := exists_beforeSlash h
  intro he
  have hlength := congrArg List.length hd
  rw [← he, List.length_append, List.length_cons] at hlength
  omega

theorem checkOwnedPaths_iff (h : AcceptedPaths i) :
    checkOwnedPaths env i.binDir i.ownedPaths = .ok () ↔ i.home = env.home ∧ Uninstallable i := by
  have hchild {name : Text} (hn : validText name = true) (hs : slash ∉ name) (hp : plainPart name) :
      validPath (i.binDir ++ slash :: name) = true := validPath_child h.bin hn hs hp
  have hlauncher : validPath (i.binDir ++ text "/goalrouter") = true :=
    @hchild (text "goalrouter") (by decide +kernel) (by decide +kernel)
      ⟨by decide, by decide, by decide⟩
  have hinstaller : validPath (i.binDir ++ text "/goalrouter-install") = true :=
    @hchild (text "goalrouter-install") (by decide +kernel) (by decide +kernel)
      ⟨by decide, by decide, by decide⟩
  have huninstaller : validPath (i.binDir ++ text "/goalrouter-uninstall") = true :=
    @hchild (text "goalrouter-uninstall") (by decide +kernel) (by decide +kernel)
      ⟨by decide, by decide, by decide⟩
  rw [checkOwnedPaths]
  simp only [check_bind_ok, orFail_ok, decide_eq_true_eq, Bool.and_eq_true]
  simp only [Installation.ownedPaths, List.all_cons, List.all_nil, Bool.and_true, Bool.and_eq_true,
    h.bin, h.config, h.state, hlauncher, hinstaller, huninstaller,
    validPath_recordedParent h.config, validPath_recordedParent h.state,
    validPath_recordedParent h.bin, recordedParent_eq_iff, true_and, and_true]
  constructor
  · rintro ⟨hhome, ⟨hc, hs, hcp, hsp, hbp⟩, _⟩
    exact ⟨hhome, hbp, hcp, hsp, hc, hs⟩
  · rintro ⟨hhome, hbp, hcp, hsp, hc, hs⟩
    exact ⟨hhome, ⟨hc, hs, hcp, hsp, hbp⟩, hcp, hsp, hbp⟩

/-- The guards that the installer's checks leave open are those against the XDG roots. -/
theorem checkPurgeTarget_ok {d : Text} (hd : validPath d = true) (hh : d ≠ i.home)
    (hp : ∀ e ∈ [i.configDir, i.stateDir, i.binDir],
      validPath e = true ∧ recordedParent e = beforeSlash e ∧ (d = e ∨ pathsOverlap d e = false))
    (hb : d ≠ i.binDir) : checkPurgeTarget i.ownedPaths d = .ok () ↔ NotXdgRoot i d := by
  have hparent (e : Text) (he : e ∈ [i.configDir, i.stateDir, i.binDir]) : d ≠ beforeSlash e := by
    obtain ⟨hv, _, rfl | hdis⟩ := hp e he
    · exact beforeSlash_ne hv
    · exact ne_of_disjoint hdis (pathsOverlap_beforeSlash hv)
  have hroot : d ≠ text "/" := by
    rintro rfl
    rw [not_validPath_root] at hd
    cases hd
  have hmem : i.configDir ∈ [i.configDir, i.stateDir, i.binDir] ∧
      i.stateDir ∈ [i.configDir, i.stateDir, i.binDir] ∧
        i.binDir ∈ [i.configDir, i.stateDir, i.binDir] := by simp
  rw [checkPurgeTarget]
  simp only [check_bind_ok, orFail_ok, Installation.ownedPaths, decide_eq_true_eq, ne_eq, hroot,
    hh, hb, (hp _ hmem.1).2.1, (hp _ hmem.2.1).2.1, (hp _ hmem.2.2).2.1, hparent _ hmem.1,
    hparent _ hmem.2.1, hparent _ hmem.2.2, not_false_eq_true, true_and, and_true, NotXdgRoot]

/-- The uninstaller accepts the recorded paths in the environment of the installation, unless it
refuses them for what they are. -/
theorem checkUninstallPaths_iff (h : AcceptedPaths i) (purge : Bool) :
    checkUninstallPaths env i purge = .ok () ↔ i.home = env.home ∧ Uninstallable i ∧
      (purge = true → commandSubstitution i.configRoot = env.configRoot ∧
        commandSubstitution i.stateRoot = env.stateRoot ∧ NotXdgRoot i i.configDir ∧
          NotXdgRoot i i.stateDir) := by
  have hstateConfig := (pathsOverlap_comm _ _).trans h.configState
  have hconfigBin := (pathsOverlap_comm _ _).trans h.binConfig
  have hstateBin := (pathsOverlap_comm _ _).trans h.binState
  have hguards (hu : Uninstallable i) : checkPurgePaths env i.ownedPaths = .ok () ↔
      commandSubstitution i.configRoot = env.configRoot ∧
        commandSubstitution i.stateRoot = env.stateRoot ∧ NotXdgRoot i i.configDir ∧
          NotXdgRoot i i.stateDir := by
    have hc := (recordedParent_eq_iff _).2 hu.configParent
    have hs := (recordedParent_eq_iff _).2 hu.stateParent
    have hb := (recordedParent_eq_iff _).2 hu.binParent
    have hconfig := @checkPurgeTarget_ok i i.configDir h.config h.configHome
      (by simp [h.config, h.state, h.bin, hc, hs, hb, h.configState, hconfigBin])
      (ne_of_disjoint hconfigBin (pathsOverlap_self _))
    have hstate := @checkPurgeTarget_ok i i.stateDir h.state h.stateHome
      (by simp [h.config, h.state, h.bin, hc, hs, hb, hstateConfig, hstateBin])
      (ne_of_disjoint hstateBin (pathsOverlap_self _))
    rw [checkPurgePaths]
    simp only [check_bind_ok, orFail_ok, decide_eq_true_eq]
    have hdirs : i.ownedPaths.configDir = i.configDir ∧ i.ownedPaths.stateDir = i.stateDir :=
      ⟨rfl, rfl⟩
    rw [hdirs.1, hdirs.2, hconfig, hstate, h.configState]
    simp only [Bool.not_false, and_true]
    rfl
  rw [checkUninstallPaths]
  simp only [check_bind_ok, orFail_ok, decide_eq_true_eq, readOwnedPaths_bind_ok h,
    checkOwnedPaths_iff h]
  constructor
  · rintro ⟨_, _, _, _, ⟨hhome, hu⟩, hp⟩
    refine ⟨hhome, hu, fun hpurge => ?_⟩
    rw [if_pos hpurge] at hp
    exact (hguards hu).1 hp
  · rintro ⟨hhome, hu, hp⟩
    refine ⟨hhome ▸ h.home, hhome ▸ h.homeRoot, validText_of_path hu.configRoot,
      validText_of_path hu.stateRoot, ⟨hhome, hu⟩, ?_⟩
    split
    · rename_i hpurge
      exact (hguards hu).2 (hp hpurge)
    · rfl

end Accepted

end GoalRouter
