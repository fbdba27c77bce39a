import GoalRouter.PurgeTree
import GoalRouter.UninstallGuards

namespace GoalRouter
open Library
set_option autoImplicit true

/-- A directory as a purge finds it, with the batches in which `find` removes what it acts on. -/
structure FoundDirectory (d : Text) where
  tree : OwnedTree
  batches : List (List TreeItem)
  batched : Batched d tree batches

/-- What the checks of the directory and its sentinel let pass. -/
def SentinelChecked (resumed : Bool) : Option (FoundDirectory d) → Prop
  | none => resumed = true
  | some found => .sentinel ∈ found.tree.items ∨ resumed = true ∧ found.tree.items = [.root]

/-- What a confirmed `uninstall.sh --purge` finds when it has passed its checks. -/
structure ConfirmedPurge (i : Installation) where
  resumed : Bool
  /-- What follows `.uninstalling.` in the names of the markers that `mktemp` has left. -/
  staged : List Text
  staged_names : ∀ suffix ∈ staged, slash ∉ suffix ∧ 0x0A ∉ suffix
  config : Option (FoundDirectory i.configDir)
  config_checked : SentinelChecked resumed config
  state : Option (FoundDirectory i.stateDir)
  state_checked : SentinelChecked resumed state
  /-- A first run finds the metadata in the state directory. -/
  metadata_checked : resumed = false → ∀ found ∈ state, ∀ name ∈ ownershipNames ++ [manifestName],
    ⟨[name], false⟩ ∈ found.tree.items
  hasLauncher : Bool
  hasInstaller : Bool

/-- `purge_tree`, if the directory is there, with the paths that it removes. -/
def purgeFound (d : Text) : Option (FoundDirectory d) → Bool × List Text
  | none => (true, [])
  | some found =>
    let (purged, s) := purgeTree d found.tree found.batches
    (purged, s.removed.map (TreeItem.name d))

namespace Installation

variable (i : Installation)

def launcher : Text := i.binDir ++ text "/goalrouter"

def installer : Text := i.binDir ++ text "/goalrouter-install"

def uninstaller : Text := i.binDir ++ text "/goalrouter-uninstall"

def lifecycleFiles : List Text := [i.launcher, i.installer, i.uninstaller]

/-- An entry of the control directory. -/
def controlFile (name : Text) : Text := i.controlDir ++ slash :: name

def stagedMarker (suffix : Text) : Text := i.controlFile (uninstallMarker ++ text "." ++ suffix)

end Installation

/-- The names of what is removed from the control directory. -/
def controlNames : List Text := ownershipNames ++ [manifestName, uninstallMarker]

/-- The paths that the run removes, in that order. A failed purge ends it. -/
def ConfirmedPurge.removed (p : ConfirmedPurge i) : List Text :=
  let staged := p.staged.map i.stagedMarker
  let (configPurged, config) := purgeFound i.configDir p.config
  if !configPurged then staged ++ config
  else
    let (statePurged, state) := purgeFound i.stateDir p.state
    if !statePurged then staged ++ config ++ state
    else
      staged ++ config ++ state ++ (if p.hasLauncher then [i.launcher] else []) ++
        (if p.hasInstaller then [i.installer] else []) ++ [i.uninstaller] ++
        controlNames.map i.controlFile ++ [i.controlDir]

/-- The places of which the installer has recorded that they are its own. -/
def InOwnedPlaces (i : Installation) (path : Text) : Prop :=
  AtOrBelow i.configDir path ∨ AtOrBelow i.stateDir path ∨ AtOrBelow i.controlDir path ∨
    path ∈ i.lifecycleFiles

/-- A confirmed purge removes nothing but what is the installer's own, and nothing of Codex home. -/
def SparesCodexHome (i : Installation) (codexHome : Text) : Prop :=
  ∀ env (p : ConfirmedPurge i), checkUninstallPaths env i true = .ok () →
    ∀ path ∈ p.removed, InOwnedPlaces i path ∧ ¬AtOrBelow codexHome path

/-- The uninstaller purges the installation, in the environment that it was installed in. -/
structure Purgeable (i : Installation) : Prop extends Uninstallable i where
  config : NotXdgRoot i i.configDir
  state : NotXdgRoot i i.stateDir

/-- Names that may lead to an entry below a directory whose sentinel is a file. -/
structure EntryNames (path : List Text) : Prop where
  names : ∀ name ∈ path, keptPart name = true ∧ slash ∉ name
  sentinel : [directorySentinel] <+: path → path = [directorySentinel]

/-- A purge of the directory leaves everything at or below the path: the directory is not there,
`find` acts on nothing that is, and the sentinel that is unlinked at the end is not. -/
structure PurgeSpares (d path : Text) : Prop where
  directory : ¬AtOrBelow path d
  found : ∀ names, EntryNames names → AtOrBelow path (TreeItem.name d ⟨names, false⟩) →
    isPurged d ⟨names, false⟩ = false
  sentinel : path = TreeItem.sentinel.name d → isPurged d .root = true ∨
    patternMatches (TreeItem.sentinel.name d) (TreeItem.sentinel.name d) = false

/-- Codex home is apart from everything that a purge removes. -/
structure CodexApart (i : Installation) (codexHome : Text) : Prop where
  bin : ¬AtOrBelow codexHome i.binDir
  lifecycle : codexHome ∉ i.lifecycleFiles
  control : codexHome ≠ i.controlDir
  controlFiles : ∀ name ∈ controlNames, codexHome ≠ i.controlFile name
  staged : ∀ suffix, slash ∉ suffix → codexHome ≠ i.stagedMarker suffix
  config : PurgeSpares i.configDir codexHome
  state : PurgeSpares i.stateDir codexHome

section Removed

variable {d : Text} {tree : OwnedTree} {batches : List (List TreeItem)} {item : TreeItem}

theorem mem_removeSentinel_removed {s : PurgeState} (h : item ∈ s.removeSentinel.removed) :
    item ∈ s.removed ∨ item = .sentinel ∧ .sentinel ∈ s.present := by
  rw [PurgeState.removeSentinel] at h
  split at h
  · rename_i hm
    rcases List.mem_append.1 h with h | h
    · exact .inl h
    · exact .inr ⟨List.mem_singleton.1 h, hm⟩
  · exact .inl h

/-- A purge removes what `find` acts on, the directory, and the sentinel if that is all it
leaves. -/
theorem purgeTree_removed (hb : Batched d tree batches)
    (h : item ∈ (purgeTree d tree batches).2.removed) :
    item ∈ tree.items ∧ (item = .root ∨ isPurged d item = true ∨
      item = .sentinel ∧ isPurged d .root = false ∧
        patternMatches (TreeItem.sentinel.name d) (TreeItem.sentinel.name d) = true) := by
  obtain ⟨order, ho, hflatten⟩ := hb
  obtain ⟨done, hd, hsub, hall⟩ := (PurgeState.start tree).removeBatches_done batches
  have hfound (hm : item ∈ ((PurgeState.start tree).after done).removed) :
      item ∈ tree.items ∧ isPurged d item = true := by
    have hm : item ∈ done := hm
    have hvisited := hsub hm
    rw [hflatten] at hvisited
    exact (mem_visited ho).1 hvisited
  rw [purgeTree] at h
  generalize (PurgeState.start tree).removeBatches batches = r at h hd hall
  obtain ⟨found, s⟩ := r
  have hs : s = (PurgeState.start tree).after done := hd
  rw [← hs] at hfound
  cases found with
  | false => exact ⟨(hfound h).1, .inr (.inl (hfound h).2)⟩
  | true =>
    simp only [Bool.not_true, Bool.false_eq_true, if_false] at h
    split at h
    · exact ⟨(hfound h).1, .inr (.inl (hfound h).2)⟩
    rename_i hroot
    have hroot := not_not.1 hroot
    split at h
    · exact ⟨(hfound h).1, .inr (.inl (hfound h).2)⟩
    rename_i hany
    -- The first `find` has not removed the directory, so it does not act on it.
    have hkept : isPurged d .root = false := by
      rw [hs, PurgeState.mem_after, hall rfl, hflatten, mem_visited ho] at hroot
      exact Bool.eq_false_iff.2 fun hp => hroot.2 ⟨tree.root_mem, hp⟩
    have hsentinel (hm : item ∈ s.removeSentinel.removed) : item ∈ tree.items ∧ (item = .root ∨
        isPurged d item = true ∨ item = .sentinel ∧ isPurged d .root = false ∧
          patternMatches (TreeItem.sentinel.name d) (TreeItem.sentinel.name d) = true) := by
      rcases mem_removeSentinel_removed hm with hm | ⟨rfl, hpresent⟩
      · exact ⟨(hfound hm).1, .inr (.inl (hfound hm).2)⟩
      · refine ⟨?_, .inr (.inr ⟨rfl, hkept, ?_⟩)⟩
        · rw [hs] at hpresent
          exact (PurgeState.mem_after.1 hpresent).1
        · simp only [Bool.not_eq_true, List.any_eq_false, Bool.and_eq_true, not_and,
            decide_eq_true_eq, Bool.not_eq_true', Bool.not_eq_false] at hany
          exact hany _ hpresent (by decide)
    split at h
    · rename_i s' hr
      rw [PurgeState.removeItem_some hr] at h
      rcases List.mem_append.1 h with h | h
      · exact hsentinel h
      · rw [List.mem_singleton.1 h]
        exact ⟨tree.root_mem, .inl rfl⟩
    · exact hsentinel h

theorem removeBatches_subset (tree : OwnedTree) (batches : List (List TreeItem)) :
    ((PurgeState.start tree).removeBatches batches).2.removed ⊆
      (purgeTree d tree batches).2.removed := by
  have hsentinel (s : PurgeState) : s.removed ⊆ s.removeSentinel.removed := by
    rw [PurgeState.removeSentinel]
    split
    · exact List.subset_append_left _ _
    · exact List.Subset.refl _
  rw [purgeTree]
  generalize (PurgeState.start tree).removeBatches batches = r
  obtain ⟨found, s⟩ := r
  dsimp only
  split
  · exact List.Subset.refl _
  split
  · exact List.Subset.refl _
  split
  · exact List.Subset.refl _
  split
  · rename_i hr
    rw [PurgeState.removeItem_some hr]
    exact List.Subset.trans (hsentinel s) (List.subset_append_left _ _)
  · exact hsentinel s

/-- An item that `find` acts on can be the first to go, if nothing is below it. -/
theorem exists_removed (h : item ∈ tree.items) (hbelow : ∀ x ∈ tree.items, x.below item = false)
    (hp : isPurged d item = true) :
    ∃ batches, Batched d tree batches ∧ item ∈ (purgeTree d tree batches).2.removed := by
  obtain ⟨rest, ho⟩ := exists_first h hbelow
  refine ⟨_, batched_visit ho, removeBatches_subset _ _ ?_⟩
  have hitem : (PurgeState.start tree).removeItem item =
      some ((PurgeState.start tree).without item) :=
    PurgeState.removeItem_of hbelow
  obtain ⟨done, hd, _, _⟩ := ((PurgeState.start tree).without item).removeBatch_done
    (rest.filter (isPurged d))
  rw [List.filter_cons_of_pos hp, PurgeState.removeBatches, PurgeState.removeBatch, hitem]
  dsimp only [PurgeState.removeBatches]
  rw [hd]
  exact List.mem_append_left _ (List.mem_append_right _ List.mem_cons_self)

theorem start_below (h : ∀ x ∈ tree.items, x = .root ∨ x = .sentinel) (x : TreeItem)
    (hx : x ∈ (PurgeState.start tree).removeSentinel.present) : x.below .root = false := by
  obtain ⟨hm, hne⟩ := PurgeState.mem_removeSentinel.1 hx
  rw [(h x hm).resolve_right hne]
  exact TreeItem.root_not_below _

/-- Where `find` acts on neither the directory nor the sentinel, and nothing else is there, the
last steps remove both. -/
theorem purgeTree_bare (h : ∀ x ∈ tree.items, x = .root ∨ x = .sentinel)
    (hroot : isPurged d .root = false)
    (hs : .sentinel ∈ tree.items →
      patternMatches (TreeItem.sentinel.name d) (TreeItem.sentinel.name d) = true) :
    ∃ batches, Batched d tree batches ∧
      purgeTree d tree batches = (true, (PurgeState.start tree).removeSentinel.without .root) := by
  obtain ⟨order, ho⟩ := exists_depthOrder tree
  have hnone : order.filter (isPurged d) = [] := by
    apply List.filter_eq_nil_iff.2
    intro x hx
    have hm := ho.perm.mem_iff.1 hx
    rcases h x hm with rfl | rfl
    · rw [hroot]
      exact Bool.false_ne_true
    · rw [excluded_sentinel (hs hm)]
      exact Bool.false_ne_true
  refine ⟨[], ⟨order, ho, hnone.symm⟩, purgeTree_of rfl tree.root_mem ?_ (start_below h)⟩
  intro x hm hne
  obtain rfl := (h x hm).resolve_left hne
  exact hs hm

end Removed

section Trees

variable {item : TreeItem}

/-- A directory with nothing in it. -/
def emptyDirectory : OwnedTree where
  items := [.root]
  nodup := List.nodup_singleton _
  names := by decide
  parents := by
    intro item hm path hp hne
    rw [List.mem_singleton.1 hm] at hp hne
    exact absurd (List.prefix_nil.1 hp) hne
  root_mem := List.mem_singleton_self _
  sentinel_file := by decide

theorem prefix_sentinel {p : List Text} (hp : p <+: [directorySentinel])
    (hne : p ≠ [directorySentinel]) : p = [] := by
  rw [← List.nil_append [directorySentinel], List.prefix_concat_iff] at hp
  exact List.prefix_nil.1 (hp.resolve_left hne)

/-- A directory with nothing in it but its sentinel. -/
def bareTree : OwnedTree where
  items := [.root, .sentinel]
  nodup := by decide +kernel
  names := by
    intro item hm
    rcases List.mem_cons.1 hm with rfl | hm
    · exact fun _ hn => absurd hn List.not_mem_nil
    · rw [List.mem_singleton.1 hm]
      exact sentinel_kept
  parents := by
    intro item hm path hp hne
    rcases List.mem_cons.1 hm with rfl | hm
    · exact absurd (List.prefix_nil.1 hp) hne
    · rw [List.mem_singleton.1 hm] at hp hne
      rw [prefix_sentinel hp hne]
      exact List.mem_cons_self
  root_mem := List.mem_cons_self
  sentinel_file := by decide +kernel

/-- The directories on the way to an entry. -/
def directoriesAbove (path : List Text) : List TreeItem :=
  (List.range path.length).map fun n => ⟨path.take n, true⟩

theorem mem_directoriesAbove {path : List Text} : item ∈ directoriesAbove path ↔
    item.isDirectory = true ∧ item.path <+: path ∧ item.path ≠ path := by
  rw [directoriesAbove, List.mem_map]
  constructor
  · rintro ⟨n, hn, rfl⟩
    refine ⟨rfl, List.take_prefix n path, fun he => ?_⟩
    have hlength := congrArg List.length he
    rw [List.length_take] at hlength
    have hlt := List.mem_range.1 hn
    omega
  · rintro ⟨hd, hp, hne⟩
    have hlt : item.path.length < path.length :=
      Nat.lt_of_le_of_ne hp.length_le fun he => hne (hp.eq_of_length he)
    refine ⟨item.path.length, List.mem_range.2 hlt, ?_⟩
    rw [← List.prefix_iff_eq_take.1 hp, ← hd]

theorem directoriesAbove_nodup (path : List Text) :
    ((directoriesAbove path).map TreeItem.path).Nodup := by
  rw [directoriesAbove, List.map_map]
  apply List.Nodup.map_on _ List.nodup_range
  intro n hn m hm he
  have hlength : (path.take n).length = (path.take m).length := congrArg List.length he
  rw [List.length_take, List.length_take] at hlength
  have hn := List.mem_range.1 hn
  have hm := List.mem_range.1 hm
  omega

/-- A directory with its sentinel and one other file, with the directories above that. -/
def fileTree (path : List Text) (h : EntryNames path) (hne : path ≠ [])
    (hs : path ≠ [directorySentinel]) : OwnedTree where
  items := .sentinel :: ⟨path, false⟩ :: directoriesAbove path
  nodup := by
    rw [List.map_cons, List.map_cons]
    refine List.nodup_cons.2 ⟨?_, List.nodup_cons.2 ⟨?_, directoriesAbove_nodup path⟩⟩
    · intro hm
      rcases List.mem_cons.1 hm with he | hm
      · exact hs he.symm
      · obtain ⟨x, hx, he⟩ := List.mem_map.1 hm
        obtain ⟨_, hp, _⟩ := mem_directoriesAbove.1 hx
        rw [he] at hp
        exact hs (h.sentinel hp)
    · intro hm
      obtain ⟨x, hx, he⟩ := List.mem_map.1 hm
      exact (mem_directoriesAbove.1 hx).2.2 he
  names := by
    intro x hm name hn
    rcases List.mem_cons.1 hm with rfl | hm
    · exact sentinel_kept name hn
    rcases List.mem_cons.1 hm with rfl | hm
    · exact h.names name hn
    · exact h.names name ((mem_directoriesAbove.1 hm).2.1.subset hn)
  parents := by
    intro x hm p hp hpx
    have hroot : ⟨[], true⟩ ∈ directoriesAbove path :=
      mem_directoriesAbove.2 ⟨rfl, List.nil_prefix, hne.symm⟩
    refine List.mem_cons_of_mem _ (List.mem_cons_of_mem _ ?_)
    rcases List.mem_cons.1 hm with rfl | hm
    · rw [prefix_sentinel hp hpx]
      exact hroot
    rcases List.mem_cons.1 hm with rfl | hm
    · exact mem_directoriesAbove.2 ⟨rfl, hp, hpx⟩
    · obtain ⟨_, hx, hne⟩ := mem_directoriesAbove.1 hm
      refine mem_directoriesAbove.2 ⟨rfl, hp.trans hx, ?_⟩
      rintro rfl
      exact hne (hx.eq_of_length (Nat.le_antisymm hx.length_le hp.length_le))
  root_mem := List.mem_cons_of_mem _ (List.mem_cons_of_mem _
    (mem_directoriesAbove.2 ⟨rfl, List.nil_prefix, hne.symm⟩))
  sentinel_file := by
    intro x hm he
    rcases List.mem_cons.1 hm with rfl | hm
    · rfl
    rcases List.mem_cons.1 hm with rfl | hm
    · rfl
    · obtain ⟨_, hp, hne⟩ := mem_directoriesAbove.1 hm
      rw [he] at hp hne
      exact absurd (h.sentinel hp).symm hne

end Trees

section Spared

variable {d path : Text}

theorem name_nil (d : Text) (b : Bool) : TreeItem.name d ⟨[], b⟩ = d := List.append_nil d

theorem atOrBelow_name (d : Text) (item : TreeItem) : AtOrBelow d (item.name d) := by
  obtain ⟨names, b⟩ := item
  cases names with
  | nil => exact .inl (name_nil d b)
  | cons name names =>
    rw [TreeItem.name, List.map_cons, List.flatten_cons, List.cons_append]
    exact atOrBelow_append _ _

theorem purgeFound_below {found : Option (FoundDirectory d)} (h : path ∈ (purgeFound d found).2) :
    AtOrBelow d path := by
  cases found with
  | none => cases h
  | some found =>
    obtain ⟨item, _, rfl⟩ := List.mem_map.1 h
    exact atOrBelow_name d item

theorem entryNames {tree : OwnedTree} {item : TreeItem} (h : item ∈ tree.items) :
    EntryNames item.path := by
  refine ⟨tree.names item h, fun hp => ?_⟩
  by_contra hne
  have hdirectory := tree.parents item h _ hp (Ne.symm hne)
  cases tree.sentinel_file _ hdirectory rfl

theorem PurgeSpares.not_removed (h : PurgeSpares d path) {found : Option (FoundDirectory d)}
    {removed : Text} (hm : removed ∈ (purgeFound d found).2) : ¬AtOrBelow path removed := by
  cases found with
  | none => cases hm
  | some found =>
    obtain ⟨item, hitem, rfl⟩ := List.mem_map.1 hm
    obtain ⟨htree, rfl | hp | ⟨rfl, hroot, hmatch⟩⟩ := purgeTree_removed found.batched hitem
    · rw [TreeItem.root, name_nil]
      exact h.directory
    · intro hbelow
      have hkept : isPurged d item = false := h.found item.path (entryNames htree) hbelow
      rw [hp] at hkept
      cases hkept
    · intro hbelow
      rcases (atOrBelow_child (by decide +kernel)).1 hbelow with he | hd
      · rcases h.sentinel he with hr | hn
        · rw [hroot] at hr
          cases hr
        · rw [hmatch] at hn
          cases hn
      · exact h.directory hd

/-- Some purge that a retry may make removes the item. -/
def MayRemove (d : Text) (item : TreeItem) : Prop :=
  ∃ found : FoundDirectory d, SentinelChecked true (some found) ∧
    item ∈ (purgeTree d found.tree found.batches).2.removed

theorem mayRemove_root (d : Text) : MayRemove d .root := by
  have hall : ∀ x ∈ emptyDirectory.items, x = .root := fun x hx => List.mem_singleton.1 hx
  by_cases hp : isPurged d .root = true
  · obtain ⟨batches, hb, hr⟩ := @exists_removed d emptyDirectory _ List.mem_cons_self (by
      intro x hx
      rw [hall x hx]
      exact TreeItem.root_not_below _) hp
    exact ⟨⟨emptyDirectory, batches, hb⟩, .inr ⟨rfl, rfl⟩, hr⟩
  · obtain ⟨batches, hb, he⟩ := @purgeTree_bare d emptyDirectory (fun x hx => .inl (hall x hx))
      (Bool.eq_false_iff.2 hp) (fun hm => absurd (hall _ hm) (by decide))
    refine ⟨⟨emptyDirectory, batches, hb⟩, .inr ⟨rfl, rfl⟩, ?_⟩
    dsimp only
    rw [he]
    exact List.mem_append_right _ List.mem_cons_self

theorem mayRemove_sentinel (hroot : isPurged d .root = false)
    (hs : patternMatches (TreeItem.sentinel.name d) (TreeItem.sentinel.name d) = true) :
    MayRemove d .sentinel := by
  have hm : TreeItem.sentinel ∈ bareTree.items := List.mem_cons_of_mem _ List.mem_cons_self
  obtain ⟨batches, hb, he⟩ := @purgeTree_bare d bareTree
    (fun x hx => (List.mem_cons.1 hx).imp_right List.mem_singleton.1) hroot (fun _ => hs)
  refine ⟨⟨bareTree, batches, hb⟩, .inl hm, ?_⟩
  dsimp only
  have hpresent : TreeItem.sentinel ∈ (PurgeState.start bareTree).present := hm
  rw [he, PurgeState.removeSentinel, if_pos hpresent]
  exact List.mem_append_left _ (List.mem_append_right _ List.mem_cons_self)

theorem mayRemove_found {names : List Text} (h : EntryNames names) (hne : names ≠ [])
    (hp : isPurged d ⟨names, false⟩ = true) : MayRemove d ⟨names, false⟩ := by
  have hfile (tree : OwnedTree) (hs : .sentinel ∈ tree.items) (hm : ⟨names, false⟩ ∈ tree.items) :
      MayRemove d ⟨names, false⟩ := by
    obtain ⟨batches, hb, hr⟩ := exists_removed hm (fun x hx => TreeItem.not_below_file hx hm rfl) hp
    exact ⟨⟨tree, batches, hb⟩, .inl hs, hr⟩
  by_cases hs : names = [directorySentinel]
  · subst hs
    exact hfile bareTree (List.mem_cons_of_mem _ List.mem_cons_self)
      (List.mem_cons_of_mem _ List.mem_cons_self)
  · exact hfile (fileTree names h hne hs) List.mem_cons_self
      (List.mem_cons_of_mem _ List.mem_cons_self)

/-- Where no retry removes anything at or below the path, a purge spares it. -/
theorem purgeSpares_of (h : ∀ item, MayRemove d item → ¬AtOrBelow path (item.name d)) :
    PurgeSpares d path := by
  have hdirectory : ¬AtOrBelow path d := by
    have hroot := h _ (mayRemove_root d)
    rwa [TreeItem.root, name_nil] at hroot
  refine ⟨hdirectory, fun names hn hbelow => ?_, ?_⟩
  · apply Bool.eq_false_iff.2
    intro hp
    by_cases hne : names = []
    · subst hne
      rw [name_nil] at hbelow
      exact hdirectory hbelow
    · exact h _ (mayRemove_found hn hne hp) hbelow
  · rintro rfl
    by_contra hboth
    obtain ⟨hroot, hmatch⟩ := not_or.1 hboth
    exact h _ (mayRemove_sentinel (Bool.eq_false_iff.2 hroot) (Bool.of_not_eq_false hmatch))
      (.refl _)

end Spared

section Scope

variable {i : Installation} {p : ConfirmedPurge i} {path codexHome : Text}

theorem mem_removed (h : path ∈ p.removed) : path ∈ p.staged.map i.stagedMarker ∨
    path ∈ (purgeFound i.configDir p.config).2 ∨ path ∈ (purgeFound i.stateDir p.state).2 ∨
      path ∈ i.lifecycleFiles ∨ path ∈ controlNames.map i.controlFile ∨ path = i.controlDir := by
  rw [ConfirmedPurge.removed] at h
  generalize p.staged.map i.stagedMarker = staged at h ⊢
  generalize purgeFound i.configDir p.config = config at h ⊢
  generalize purgeFound i.stateDir p.state = state at h ⊢
  generalize controlNames.map i.controlFile = control at h ⊢
  dsimp only at h
  split at h
  · rcases List.mem_append.1 h with h | h
    · exact .inl h
    · exact .inr (.inl h)
  split at h
  · rcases List.mem_append.1 h with h | h
    · rcases List.mem_append.1 h with h | h
      · exact .inl h
      · exact .inr (.inl h)
    · exact .inr (.inr (.inl h))
  · have hlauncher : path ∈ (if p.hasLauncher then [i.launcher] else []) →
      path ∈ i.lifecycleFiles := by
      intro hm
      split at hm
      · exact List.mem_cons.2 (.inl (List.mem_singleton.1 hm))
      · cases hm
    have hinstaller : path ∈ (if p.hasInstaller then [i.installer] else []) →
        path ∈ i.lifecycleFiles := by
      intro hm
      split at hm
      · exact List.mem_cons_of_mem _ (List.mem_cons.2 (.inl (List.mem_singleton.1 hm)))
      · cases hm
    have huninstaller : path ∈ [i.uninstaller] → path ∈ i.lifecycleFiles := fun hm =>
      List.mem_cons_of_mem _ (List.mem_cons_of_mem _ hm)
    simp only [List.mem_append, or_assoc] at h
    rcases h with h | h | h | h | h | h | h | h
    · exact .inl h
    · exact .inr (.inl h)
    · exact .inr (.inr (.inl h))
    · exact .inr (.inr (.inr (.inl (hlauncher h))))
    · exact .inr (.inr (.inr (.inl (hinstaller h))))
    · exact .inr (.inr (.inr (.inl (huninstaller h))))
    · exact .inr (.inr (.inr (.inr (.inl h))))
    · exact .inr (.inr (.inr (.inr (.inr (List.mem_singleton.1 h)))))

theorem atOrBelow_controlFile (name : Text) : AtOrBelow i.controlDir (i.controlFile name) :=
  atOrBelow_append _ _

/-- Whatever the recorded paths are, a purge removes nothing but the installer's own. -/
theorem removed_owned (h : path ∈ p.removed) : InOwnedPlaces i path := by
  rcases mem_removed h with h | h | h | h | h | rfl
  · obtain ⟨suffix, _, rfl⟩ := List.mem_map.1 h
    exact .inr (.inr (.inl (atOrBelow_controlFile _)))
  · exact .inl (purgeFound_below h)
  · exact .inr (.inl (purgeFound_below h))
  · exact .inr (.inr (.inr h))
  · obtain ⟨name, _, rfl⟩ := List.mem_map.1 h
    exact .inr (.inr (.inl (atOrBelow_controlFile name)))
  · exact .inr (.inr (.inl (.refl _)))

theorem slash_not_mem_controlNames {name : Text} (h : name ∈ controlNames) : slash ∉ name := by
  have hall : controlNames.all (fun name => !name.contains slash) = true := by decide +kernel
  have hname := List.all_eq_true.1 hall name h
  simpa using hname

theorem slash_not_mem_marker {suffix : Text} (h : slash ∉ suffix) :
    slash ∉ uninstallMarker ++ text "." ++ suffix := by
  intro hm
  rcases List.mem_append.1 hm with hm | hm
  · exact absurd hm (by decide +kernel)
  · exact h hm

theorem atOrBelow_controlDir {path : Text} :
    AtOrBelow path i.controlDir ↔ path = i.controlDir ∨ AtOrBelow path i.binDir :=
  @atOrBelow_child path i.binDir (text ".goalrouter-control") (by decide +kernel)

theorem lifecycleFile_eq (h : path ∈ i.lifecycleFiles) :
    ∃ name, slash ∉ name ∧ path = i.binDir ++ slash :: name := by
  have hnames : text "/goalrouter" = slash :: text "goalrouter" ∧
      text "/goalrouter-install" = slash :: text "goalrouter-install" ∧
        text "/goalrouter-uninstall" = slash :: text "goalrouter-uninstall" := by decide +kernel
  simp only [Installation.lifecycleFiles, List.mem_cons, List.not_mem_nil, or_false,
    Installation.launcher, Installation.installer, Installation.uninstaller, hnames.1, hnames.2.1,
    hnames.2.2] at h
  rcases h with h | h | h
  · exact ⟨_, by decide +kernel, h⟩
  · exact ⟨_, by decide +kernel, h⟩
  · exact ⟨_, by decide +kernel, h⟩

theorem CodexApart.not_removed (h : CodexApart i codexHome) (hm : path ∈ p.removed) :
    ¬AtOrBelow codexHome path := by
  have hcontrol : ¬AtOrBelow codexHome i.controlDir := fun hbelow =>
    (atOrBelow_controlDir.1 hbelow).elim h.control h.bin
  rcases mem_removed hm with hm | hm | hm | hm | hm | rfl
  · obtain ⟨suffix, hs, rfl⟩ := List.mem_map.1 hm
    obtain ⟨hslash, _⟩ := p.staged_names suffix hs
    intro hbelow
    rcases (atOrBelow_child (slash_not_mem_marker hslash)).1 hbelow with he | hd
    · exact h.staged suffix hslash he
    · exact hcontrol hd
  · exact h.config.not_removed hm
  · exact h.state.not_removed hm
  · intro hbelow
    obtain ⟨name, hslash, he⟩ := lifecycleFile_eq hm
    rw [he] at hbelow
    rcases (atOrBelow_child hslash).1 hbelow with hpath | hd
    · rw [← he] at hpath
      exact h.lifecycle (hpath ▸ hm)
    · exact h.bin hd
  · obtain ⟨name, hn, rfl⟩ := List.mem_map.1 hm
    intro hbelow
    rcases (atOrBelow_child (slash_not_mem_controlNames hn)).1 hbelow with he | hd
    · exact h.controlFiles name hn he
    · exact hcontrol hd
  · exact hcontrol

/-- A retry after the directories are gone. -/
def lastRun (i : Installation) (staged : List Text)
    (h : ∀ suffix ∈ staged, slash ∉ suffix ∧ 0x0A ∉ suffix) : ConfirmedPurge i where
  resumed := true
  staged := staged
  staged_names := h
  config := none
  config_checked := rfl
  state := none
  state_checked := rfl
  metadata_checked := nofun
  hasLauncher := true
  hasInstaller := true

/-- A retry that finds a configuration directory. -/
def configRun (found : FoundDirectory i.configDir) (h : SentinelChecked true (some found)) :
    ConfirmedPurge i :=
  { lastRun i [] nofun with config := some found, config_checked := h }

/-- A retry that finds a state directory. -/
def stateRun (found : FoundDirectory i.stateDir) (h : SentinelChecked true (some found)) :
    ConfirmedPurge i :=
  { lastRun i [] nofun with state := some found, state_checked := h, metadata_checked := nofun }

theorem lastRun_removed (i : Installation) (staged : List Text)
    (h : ∀ suffix ∈ staged, slash ∉ suffix ∧ 0x0A ∉ suffix) :
    (lastRun i staged h).removed = staged.map i.stagedMarker ++ i.lifecycleFiles ++
      controlNames.map i.controlFile ++ [i.controlDir] := by
  simp [ConfirmedPurge.removed, lastRun, purgeFound, Installation.lifecycleFiles]

theorem config_removed (h : path ∈ (purgeFound i.configDir p.config).2) : path ∈ p.removed := by
  rw [ConfirmedPurge.removed]
  generalize purgeFound i.configDir p.config = config at h ⊢
  dsimp only
  split
  · exact List.mem_append_right _ h
  split
  · exact List.mem_append_left _ (List.mem_append_right _ h)
  · simp [h]

theorem state_removed (hc : (purgeFound i.configDir p.config).1 = true)
    (h : path ∈ (purgeFound i.stateDir p.state).2) : path ∈ p.removed := by
  rw [ConfirmedPurge.removed]
  dsimp only
  rw [hc]
  generalize purgeFound i.stateDir p.state = state at h ⊢
  simp only [Bool.not_true, Bool.false_eq_true, if_false]
  split
  · exact List.mem_append_right _ h
  · simp [h]

theorem codexApart_of (hv : validPath codexHome = true)
    (h : ∀ p : ConfirmedPurge i, ∀ path ∈ p.removed, ¬AtOrBelow codexHome path) :
    CodexApart i codexHome := by
  have hlast (path : Text)
      (hm : path ∈ i.lifecycleFiles ++ controlNames.map i.controlFile ++ [i.controlDir]) :
      ¬AtOrBelow codexHome path := by
    apply h (lastRun i [] nofun)
    rw [lastRun_removed]
    exact hm
  refine ⟨?_, ?_, ?_, ?_, ?_, purgeSpares_of ?_, purgeSpares_of ?_⟩
  · intro hbelow
    have huninstaller : AtOrBelow codexHome i.uninstaller :=
      (@atOrBelow_child codexHome i.binDir (text "goalrouter-uninstall") (by decide +kernel)).2
        (.inr hbelow)
    refine hlast _ (List.mem_append_left _ (List.mem_append_left _ ?_)) huninstaller
    exact List.mem_cons_of_mem _ (List.mem_cons_of_mem _ List.mem_cons_self)
  · exact fun hm => hlast _ (List.mem_append_left _ (List.mem_append_left _ hm)) (.refl _)
  · exact fun he => hlast _ (List.mem_append_right _ List.mem_cons_self) (.inl he.symm)
  · intro name hn he
    refine hlast _ (List.mem_append_left _ (List.mem_append_right _ ?_)) (.inl he.symm)
    exact List.mem_map_of_mem hn
  · intro suffix hs he
    have hline : 0x0A ∉ suffix := by
      intro hm
      have htext := validText_of_path hv
      rw [he] at htext
      have hprint := (validText_iff.1 htext).2 0x0A (by
        simp [Installation.stagedMarker, Installation.controlFile, hm])
      exact absurd hprint.1 (by decide)
    refine h (lastRun i [suffix] ?_) _ ?_ (.inl he.symm)
    · intro x hx
      rw [List.mem_singleton.1 hx]
      exact ⟨hs, hline⟩
    · rw [lastRun_removed]
      exact List.mem_append_left _
        (List.mem_append_left _ (List.mem_append_left _ List.mem_cons_self))
  · rintro item ⟨found, hchecked, hm⟩
    exact h (configRun found hchecked) _ (config_removed (List.mem_map_of_mem hm))
  · rintro item ⟨found, hchecked, hm⟩
    exact h (stateRun found hchecked) _ (state_removed rfl (List.mem_map_of_mem hm))

/-- The environment of the installation. -/
def Installation.environment (i : Installation) : Environment where
  home := i.home
  configRoot := commandSubstitution i.configRoot
  stateRoot := commandSubstitution i.stateRoot

/-- The same for every place where Codex home may lie, which is another than the recorded one where
a symbolic link leads to it. What a purge removes it names without such links. -/
theorem sparesCodexHome_iff (h : AcceptedPaths i) (hv : validPath codexHome = true) :
    SparesCodexHome i codexHome ↔ (Purgeable i → CodexApart i codexHome) := by
  constructor
  · intro hspares hp
    have hchecks : checkUninstallPaths i.environment i true = .ok () :=
      (checkUninstallPaths_iff h true).2
        ⟨rfl, hp.toUninstallable, fun _ => ⟨rfl, rfl, hp.config, hp.state⟩⟩
    exact codexApart_of hv fun p path hm => (hspares _ p hchecks path hm).2
  · intro hapart env p hchecks path hm
    obtain ⟨_, hu, hpurge⟩ := (checkUninstallPaths_iff h true).1 hchecks
    obtain ⟨_, _, hconfig, hstate⟩ := hpurge rfl
    exact ⟨removed_owned hm, (hapart ⟨hu, hconfig, hstate⟩).not_removed hm⟩

variable {host : DestinationHost}

/-- For the paths that the installer accepts, a confirmed purge keeps to the installer's own and
leaves the recorded Codex home alone just where the uninstaller refuses the paths or they keep
Codex home apart. -/
theorem purge_spares_codex_home_iff (h : checkInstallPaths host i = .ok ()) :
    SparesCodexHome i i.codexHome ↔ (Purgeable i → CodexApart i i.codexHome) :=
  sparesCodexHome_iff (checkInstallPaths_ok h) (checkInstallPaths_ok h).codex

end Scope

section Nested

/-- Codex home in the configuration directory, as in `--codex-home ~/.config/goalrouter/codex`. -/
def nestedInstallation : Installation :=
  { sampleInstallation with codexHome := text "/home/user/.config/goalrouter/codex" }

/-- A home directory of one's own with nothing in it. -/
def emptyHome : DestinationHost where
  pathExists path := path = text "/home/user"
  isSymlink _ := false
  isDirectory _ := true
  isWritable _ := true
  physical := some
  isOwned _ := true
  isShared _ := false

theorem nested_accepted : checkInstallPaths emptyHome nestedInstallation = .ok () := by
  decide +kernel

theorem nested_spares_codex_home_iff :
    SparesCodexHome nestedInstallation nestedInstallation.codexHome ↔
    (Purgeable nestedInstallation → CodexApart nestedInstallation nestedInstallation.codexHome) :=
  purge_spares_codex_home_iff nested_accepted

/-- A state directory with the metadata that the installer has left there. -/
def metadataTree : OwnedTree where
  items := .root :: .sentinel :: (ownershipNames ++ [manifestName]).map fun name => ⟨[name], false⟩
  nodup := by decide +kernel
  names := by
    have hall : (TreeItem.root :: .sentinel :: (ownershipNames ++ [manifestName]).map fun name =>
        ⟨[name], false⟩).all (fun item => item.path.all fun name =>
          keptPart name && !name.contains slash) = true := by decide +kernel
    intro item hm name hn
    have hname := List.all_eq_true.1 (List.all_eq_true.1 hall item hm) name hn
    simpa using hname
  parents := by
    intro item hm path hp hne
    have hlength : ((TreeItem.root :: .sentinel ::
        (ownershipNames ++ [manifestName]).map fun name => ⟨[name], false⟩).all
          fun item => item.path.length ≤ 1) = true := by decide +kernel
    have hitem := of_decide_eq_true (List.all_eq_true.1 hlength item hm)
    have hlt : path.length < item.path.length :=
      Nat.lt_of_le_of_ne hp.length_le fun he => hne (hp.eq_of_length he)
    have hzero : path.length = 0 := by omega
    rw [List.length_eq_zero_iff.1 hzero]
    exact List.mem_cons_self
  root_mem := List.mem_cons_self
  sentinel_file := by
    intro item hm he
    rcases List.mem_cons.1 hm with rfl | hm
    · cases he
    rcases List.mem_cons.1 hm with rfl | hm
    · rfl
    · obtain ⟨name, _, rfl⟩ := List.mem_map.1 hm
      rfl

/-- The installer accepts a Codex home in the configuration directory, and a first purge removes
what is in it. -/
theorem nested_codex_home_removed : checkInstallPaths emptyHome nestedInstallation = .ok () ∧
    ¬SparesCodexHome nestedInstallation nestedInstallation.codexHome := by
  refine ⟨nested_accepted, fun h => ?_⟩
  have hchecks : checkUninstallPaths nestedInstallation.environment nestedInstallation true =
      .ok () := by
    decide +kernel
  have hentry : EntryNames [text "codex", text "auth.json"] := by
    refine ⟨by decide +kernel, fun hp => ?_⟩
    exact absurd hp (by decide +kernel)
  obtain ⟨batches, hb, hr⟩ := @exists_removed nestedInstallation.configDir
    (fileTree _ hentry (by decide) (by decide)) ⟨[text "codex", text "auth.json"], false⟩
    (List.mem_cons_of_mem _ List.mem_cons_self)
    (fun x hx => TreeItem.not_below_file hx (List.mem_cons_of_mem _ List.mem_cons_self) rfl)
    (by decide +kernel)
  obtain ⟨order, ho⟩ := exists_depthOrder metadataTree
  let run : ConfirmedPurge nestedInstallation := {
    resumed := false
    staged := []
    staged_names := nofun
    config := some ⟨_, batches, hb⟩
    config_checked := .inl List.mem_cons_self
    state := some ⟨metadataTree, _, batched_visit ho⟩
    state_checked := .inl (List.mem_cons_of_mem _ List.mem_cons_self)
    metadata_checked := by
      intro _ found hf name hn
      cases hf
      exact List.mem_cons_of_mem _ (List.mem_cons_of_mem _ (List.mem_map_of_mem hn))
    hasLauncher := true
    hasInstaller := true }
  have hm : TreeItem.name nestedInstallation.configDir ⟨[text "codex", text "auth.json"], false⟩ ∈
      run.removed := config_removed (List.mem_map_of_mem hr)
  exact (h _ run hchecks _ hm).2 (.inr (by decide +kernel))

end Nested

end GoalRouter
