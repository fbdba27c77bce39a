import GoalRouter.Installation
import GoalRouter.Library.PurePath
import GoalRouter.Library.ShellPattern
import Mathlib.Data.List.Sort

namespace GoalRouter
open Library
set_option autoImplicit true

/-- An entry of a directory tree, by the names that lead to it. -/
structure TreeItem where
  path : List Text
  isDirectory : Bool
  deriving DecidableEq

namespace TreeItem

/-- The directory itself. -/
def root : TreeItem := ⟨[], true⟩

def sentinel : TreeItem := ⟨[directorySentinel], false⟩

/-- The item is below the other one. -/
def below (a b : TreeItem) : Bool := decide (b.path <+: a.path ∧ a.path ≠ b.path)

/-- The path by which `find` names an item of the tree of a directory. -/
def name (target : Text) (item : TreeItem) : Text := target ++ (item.path.map (slash :: ·)).flatten

end TreeItem

/-- A directory with everything below it. Its sentinel is a file, if it is there. -/
structure OwnedTree where
  items : List TreeItem
  nodup : (items.map TreeItem.path).Nodup
  names : ∀ item ∈ items, ∀ name ∈ item.path, keptPart name = true ∧ slash ∉ name
  parents : ∀ item ∈ items, ∀ path, path <+: item.path → path ≠ item.path → ⟨path, true⟩ ∈ items
  root_mem : .root ∈ items
  sentinel_file : ∀ item ∈ items, item.path = [directorySentinel] → item.isDirectory = false

/-- What is there while the directory is purged, and what was removed, in that order. -/
structure PurgeState where
  present : List TreeItem
  removed : List TreeItem

namespace PurgeState

def start (tree : OwnedTree) : PurgeState := ⟨tree.items, []⟩

def without (s : PurgeState) (item : TreeItem) : PurgeState :=
  ⟨s.present.filter (· ≠ item), s.removed ++ [item]⟩

/-- `rmdir` of a directory, `rm -f` of anything else. -/
def removeItem (s : PurgeState) (item : TreeItem) : Option PurgeState :=
  if item.isDirectory then
    if s.present.any (·.below item) then none else some (s.without item)
  else some (s.without item)

/-- The `sh -c` of one batch, with the state after it and its success. -/
def removeBatch (s : PurgeState) : List TreeItem → Bool × PurgeState
  | [] => (true, s)
  | item :: items => match s.removeItem item with
    | some s => s.removeBatch items
    | none => (false, s)

/-- The batches of `-exec ... {} +`. A failed one makes `find` fail after the others. -/
def removeBatches (s : PurgeState) : List (List TreeItem) → Bool × PurgeState
  | [] => (true, s)
  | batch :: batches =>
    let (removed, s) := s.removeBatch batch
    let (others, s) := s.removeBatches batches
    (removed && others, s)

/-- `rm -f "$purge_sentinel"`. -/
def removeSentinel (s : PurgeState) : PurgeState :=
  if .sentinel ∈ s.present then s.without .sentinel else s

end PurgeState

/-- The patterns that keep `find` from acting on a path: the directory's and the sentinel's. -/
def isExcluded (target path : Text) : Bool :=
  patternMatches target path || patternMatches (TreeItem.sentinel.name target) path

/-- The first `find` acts on the items that the patterns do not exclude. -/
def isPurged (target : Text) (item : TreeItem) : Bool := !isExcluded target (item.name target)

/-- `purge_tree` for the batches in which `find` removes what it acts on. -/
def purgeTree (target : Text) (tree : OwnedTree) (batches : List (List TreeItem)) :
    Bool × PurgeState :=
  let (found, s) := (PurgeState.start tree).removeBatches batches
  if !found then (false, s)
  -- The second `find` fails without its directory, and names what was left.
  else if .root ∉ s.present then (false, s)
  else if s.present.any fun item => item ≠ .root &&
      !patternMatches (TreeItem.sentinel.name target) (item.name target) then (false, s)
  else
    let s := s.removeSentinel
    match s.removeItem .root with
    | some s => (true, s)
    | none => (false, s)

/-- The orders in which `find -depth` may visit the tree: everything below a directory first. -/
structure DepthOrder (tree : OwnedTree) (order : List TreeItem) : Prop where
  perm : order.Perm tree.items
  depth : order.Pairwise fun a b => b.below a = false

/-- The batches in which `find` may remove what it acts on. -/
def Batched (target : Text) (tree : OwnedTree) (batches : List (List TreeItem)) : Prop :=
  ∃ order, DepthOrder tree order ∧ batches.flatten = order.filter (isPurged target)

/-- The purge succeeded: everything is gone, the sentinel after all but the directory, and the
directory last. -/
structure Purged (tree : OwnedTree) (r : Bool × PurgeState) : Prop where
  succeeded : r.1 = true
  emptied : r.2.present = []
  accounted : r.2.removed.Perm tree.items
  last : ∃ others, .sentinel ∉ others ∧ .root ∉ others ∧
    (r.2.removed = others ++ [.sentinel, .root] ∨ r.2.removed = others ++ [.root])

/-- Read as patterns, the paths of the directory and of its sentinel cover the directory and no
other item; and the sentinel's covers the sentinel, unless that is the only item and not covered. -/
structure Excludes (target : Text) (tree : OwnedTree) : Prop where
  root : isPurged target .root = false
  others : ∀ item ∈ tree.items, item ≠ .root → item ≠ .sentinel → isPurged target item = true
  sentinel : .sentinel ∈ tree.items →
    patternMatches (TreeItem.sentinel.name target) (TreeItem.sentinel.name target) = true ∨
      isPurged target .sentinel = true ∧ ∀ item ∈ tree.items, item = .root ∨ item = .sentinel

namespace PurgeState

variable {s s' : PurgeState} {item : TreeItem}

/-- What is left when the given items are gone. -/
def after (s : PurgeState) (done : List TreeItem) : PurgeState :=
  ⟨s.present.filter (· ∉ done), s.removed ++ done⟩

@[simp] theorem after_nil (s : PurgeState) : s.after [] = s := by
  cases s
  simp [after]

@[simp] theorem after_after (s : PurgeState) (a b : List TreeItem) :
    (s.after a).after b = s.after (a ++ b) := by
  simp [after, List.filter_filter, Bool.and_comm]

theorem without_eq (s : PurgeState) (item : TreeItem) : s.without item = s.after [item] := by
  simp [after, without]

@[simp] theorem after_cons (s : PurgeState) (item : TreeItem) (items : List TreeItem) :
    (s.without item).after items = s.after (item :: items) := by
  rw [without_eq, after_after, List.singleton_append]

theorem mem_after {done : List TreeItem} :
    item ∈ (s.after done).present ↔ item ∈ s.present ∧ item ∉ done := by
  simp [after]

theorem mem_without {x : TreeItem} :
    x ∈ (s.without item).present ↔ x ∈ s.present ∧ x ≠ item := by
  simp [without]

theorem removeItem_some (h : s.removeItem item = some s') : s' = s.without item := by
  rw [removeItem] at h
  split at h
  · split at h
    · cases h
    · exact (Option.some.inj h).symm
  · exact (Option.some.inj h).symm

theorem removeItem_of (h : ∀ x ∈ s.present, x.below item = false) :
    s.removeItem item = some (s.without item) := by
  have hany : s.present.any (·.below item) = false := List.any_eq_false.2 fun x hx =>
    Bool.eq_false_iff.1 (h x hx)
  rw [removeItem, hany]
  split <;> rfl

theorem removeBatch_done (s : PurgeState) (items : List TreeItem) :
    ∃ done, (s.removeBatch items).2 = s.after done ∧ done ⊆ items ∧
      ((s.removeBatch items).1 = true → done = items) := by
  induction items generalizing s with
  | nil => exact ⟨[], (after_nil s).symm, List.Subset.refl _, fun _ => rfl⟩
  | cons item items ih =>
    rw [removeBatch]
    cases hi : s.removeItem item with
    | none => exact ⟨[], (after_nil s).symm, List.nil_subset _, fun h => by cases h⟩
    | some s₁ =>
      obtain ⟨done, hd, hsub, hall⟩ := ih s₁
      rw [removeItem_some hi] at hd
      refine ⟨item :: done, ?_, List.cons_subset_cons _ hsub, fun h => ?_⟩
      · rw [← after_cons, ← hd, removeItem_some hi]
      · rw [hall h]

theorem removeBatches_done (s : PurgeState) (batches : List (List TreeItem)) :
    ∃ done, (s.removeBatches batches).2 = s.after done ∧ done ⊆ batches.flatten ∧
      ((s.removeBatches batches).1 = true → done = batches.flatten) := by
  induction batches generalizing s with
  | nil => exact ⟨[], (after_nil s).symm, List.Subset.refl _, fun _ => rfl⟩
  | cons batch batches ih =>
    obtain ⟨done, hd, hsub, hall⟩ := s.removeBatch_done batch
    obtain ⟨done', hd', hsub', hall'⟩ := ih (s.removeBatch batch).2
    refine ⟨done ++ done', ?_, ?_, fun h => ?_⟩
    · rw [removeBatches, hd', hd, after_after]
    · rw [List.flatten_cons]
      exact List.append_subset.2 ⟨List.subset_append_of_subset_left _ hsub,
        List.subset_append_of_subset_right _ hsub'⟩
    · rw [removeBatches, Bool.and_eq_true] at h
      rw [hall h.1, hall' h.2, List.flatten_cons]

/-- Items of which each is removed before the directories above it can be removed together. -/
theorem removeBatch_of {items : List TreeItem}
    (h : ∀ pre item post, items = pre ++ item :: post →
      ∀ x ∈ (s.after pre).present, x.below item = false) :
    s.removeBatch items = (true, s.after items) := by
  induction items generalizing s with
  | nil => rw [removeBatch, after_nil]
  | cons item items ih =>
    have hitem := h [] item items rfl
    rw [after_nil] at hitem
    rw [removeBatch, removeItem_of hitem, ← after_cons]
    apply ih
    intro pre x post he
    rw [after_cons]
    exact h (item :: pre) x post (by rw [he, List.cons_append])

theorem removeBatch_append {a b : List TreeItem}
    (h : s.removeBatch (a ++ b) = (true, s')) :
    ∃ s₁, s.removeBatch a = (true, s₁) ∧ s₁.removeBatch b = (true, s') := by
  induction a generalizing s with
  | nil => exact ⟨s, rfl, h⟩
  | cons item a ih =>
    rw [List.cons_append, removeBatch] at h
    rw [removeBatch]
    cases hi : s.removeItem item with
    | none =>
      rw [hi] at h
      cases h
    | some s₁ =>
      rw [hi] at h
      exact ih h

theorem removeBatches_of {batches : List (List TreeItem)}
    (h : s.removeBatch batches.flatten = (true, s')) : s.removeBatches batches = (true, s') := by
  induction batches generalizing s with
  | nil => exact h
  | cons batch batches ih =>
    obtain ⟨s₁, hfirst, hrest⟩ := removeBatch_append h
    rw [removeBatches, hfirst]
    dsimp only
    rw [ih hrest]
    rfl

end PurgeState

variable {target : Text} {tree : OwnedTree} {batches : List (List TreeItem)}

/-- What a successful purge went through. -/
theorem purgeTree_ok (h : (purgeTree target tree batches).1 = true) :
    let s := (PurgeState.start tree).after batches.flatten
    .root ∈ s.present ∧
      (∀ item ∈ s.present, item ≠ .root →
        patternMatches (TreeItem.sentinel.name target) (item.name target) = true) ∧
      (purgeTree target tree batches).2 = s.removeSentinel.without .root := by
  obtain ⟨done, hd, _, hall⟩ := (PurgeState.start tree).removeBatches_done batches
  rw [purgeTree] at h ⊢
  generalize (PurgeState.start tree).removeBatches batches = r at h hd hall
  obtain ⟨found, s⟩ := r
  cases found with
  | false => cases h
  | true =>
    have hs : s = (PurgeState.start tree).after batches.flatten := by
      rw [← hall rfl]
      exact hd
    rw [← hs]
    simp only [Bool.not_true, Bool.false_eq_true, if_false] at h ⊢
    by_cases hroot : TreeItem.root ∈ s.present
    · rw [if_neg (not_not.2 hroot)] at h ⊢
      split at h
      · cases h
      · rename_i hleft
        rw [if_neg hleft]
        cases hr : s.removeSentinel.removeItem .root with
        | none =>
          rw [hr] at h
          cases h
        | some s' =>
          refine ⟨hroot, fun item hm hne => ?_, PurgeState.removeItem_some hr⟩
          simp only [Bool.not_eq_true, List.any_eq_false, Bool.and_eq_true, not_and,
            decide_eq_true_eq, Bool.not_eq_true', Bool.not_eq_false] at hleft
          exact hleft item hm hne
    · rw [if_pos hroot] at h
      cases h

theorem purgeTree_of {s : PurgeState}
    (h : (PurgeState.start tree).removeBatch batches.flatten = (true, s))
    (hroot : .root ∈ s.present)
    (hleft : ∀ item ∈ s.present, item ≠ .root →
      patternMatches (TreeItem.sentinel.name target) (item.name target) = true)
    (hbelow : ∀ item ∈ s.removeSentinel.present, item.below .root = false) :
    purgeTree target tree batches = (true, s.removeSentinel.without .root) := by
  have hany : (s.present.any fun item => item ≠ .root &&
      !patternMatches (TreeItem.sentinel.name target) (item.name target)) = false := by
    apply List.any_eq_false.2
    intro item hm
    by_cases hne : item = .root
    · simp [hne]
    · simp [hleft item hm hne]
  rw [purgeTree, PurgeState.removeBatches_of h]
  simp only [Bool.not_true, Bool.false_eq_true, if_false, hany]
  rw [if_neg (not_not.2 hroot), PurgeState.removeItem_of hbelow]

namespace OwnedTree

variable {item x : TreeItem}

theorem eq_of_path (ha : item ∈ tree.items) (hb : x ∈ tree.items) (h : item.path = x.path) :
    item = x :=
  List.inj_on_of_nodup_map tree.nodup ha hb h

theorem items_nodup (tree : OwnedTree) : tree.items.Nodup := tree.nodup.of_map _

theorem eq_sentinel (hm : item ∈ tree.items) (h : item.path = [directorySentinel]) :
    item = .sentinel := by
  have hfile := tree.sentinel_file item hm h
  cases item
  cases h
  cases hfile
  rfl

end OwnedTree

namespace TreeItem

variable {item x : TreeItem}

theorem below_iff : item.below x = true ↔ x.path <+: item.path ∧ item.path ≠ x.path :=
  decide_eq_true_iff

theorem length_lt_of_below (h : item.below x = true) : x.path.length < item.path.length := by
  obtain ⟨hp, hne⟩ := below_iff.1 h
  exact Nat.lt_of_le_of_ne hp.length_le fun he => hne (hp.eq_of_length he).symm

theorem root_not_below (x : TreeItem) : root.below x = false := by
  apply Bool.eq_false_iff.2
  intro h
  cases length_lt_of_below h

theorem sentinel_not_below (hm : x ∈ tree.items) (hne : x ≠ root) :
    sentinel.below x = false := by
  apply Bool.eq_false_iff.2
  intro h
  have hlt : x.path.length < 1 := length_lt_of_below h
  have hnil : x.path = [] := List.length_eq_zero_iff.1 (Nat.lt_one_iff.1 hlt)
  exact hne (OwnedTree.eq_of_path hm tree.root_mem hnil)

theorem not_below_file (hm : x ∈ tree.items) (hi : item ∈ tree.items)
    (hf : item.isDirectory = false) : x.below item = false := by
  apply Bool.eq_false_iff.2
  intro h
  obtain ⟨hp, hne⟩ := below_iff.1 h
  have hdirectory := tree.parents x hm _ hp hne.symm
  rw [OwnedTree.eq_of_path hi hdirectory rfl] at hf
  cases hf

end TreeItem

/-- Longer paths first, everything below a directory comes before it. -/
theorem exists_depth (items : List TreeItem) :
    ∃ order : List TreeItem, order.Perm items ∧ order.Pairwise fun a b => b.below a = false := by
  refine ⟨items.mergeSort fun a b => b.path.length ≤ a.path.length, List.mergeSort_perm _ _, ?_⟩
  have hsorted := @List.pairwise_mergeSort TreeItem
    (fun a b => decide (b.path.length ≤ a.path.length)) (by simp; omega) (by simp; omega) items
  apply hsorted.imp
  intro a b hle
  apply Bool.eq_false_iff.2
  intro h
  exact absurd (TreeItem.length_lt_of_below h) (Nat.not_lt.2 (of_decide_eq_true hle))

theorem exists_depthOrder (tree : OwnedTree) : ∃ order, DepthOrder tree order := by
  obtain ⟨order, hp, hd⟩ := exists_depth tree.items
  exact ⟨order, hp, hd⟩

/-- `find` may come first to an item that nothing is below. -/
theorem exists_first {item : TreeItem} (h : item ∈ tree.items)
    (hbelow : ∀ x ∈ tree.items, x.below item = false) : ∃ rest, DepthOrder tree (item :: rest) := by
  obtain ⟨rest, hp, hd⟩ := exists_depth (tree.items.erase item)
  refine ⟨rest, (hp.cons _).trans (List.perm_cons_erase h).symm, List.pairwise_cons.2 ⟨?_, hd⟩⟩
  intro x hx
  exact hbelow x (List.mem_of_mem_erase (hp.mem_iff.1 hx))

/-- The items that `find` acts on can be removed in the order of its visit, if it acts on all
but the directory and the sentinel. -/
theorem removeBatch_visited {order : List TreeItem} (hx : Excludes target tree)
    (ho : DepthOrder tree order) :
    (PurgeState.start tree).removeBatch (order.filter (isPurged target)) =
      (true, (PurgeState.start tree).after (order.filter (isPurged target))) := by
  apply PurgeState.removeBatch_of
  intro pre item post hsplit x hpresent
  obtain ⟨hm, hpre⟩ := PurgeState.mem_after.1 hpresent
  have hitem : item ∈ order.filter (isPurged target) := by
    rw [hsplit]
    exact List.mem_append_right _ List.mem_cons_self
  have hpurged : isPurged target item = true := (List.mem_filter.1 hitem).2
  have hne : item ≠ .root := by
    rintro rfl
    rw [hx.root] at hpurged
    cases hpurged
  have htree : item ∈ tree.items := ho.perm.mem_iff.1 (List.mem_filter.1 hitem).1
  by_cases hroot : x = .root
  · rw [hroot]
    exact TreeItem.root_not_below item
  by_cases hsentinel : x = .sentinel
  · rw [hsentinel]
    exact TreeItem.sentinel_not_below htree hne
  have hvisited : x ∈ pre ++ item :: post := by
    rw [← hsplit]
    exact List.mem_filter.2 ⟨ho.perm.mem_iff.2 hm, hx.others x hm hroot hsentinel⟩
  rcases List.mem_append.1 hvisited with hbefore | hafter
  · exact absurd hbefore hpre
  rcases List.mem_cons.1 hafter with rfl | hlater
  · exact Bool.eq_false_iff.2 fun h => (TreeItem.below_iff.1 h).2 rfl
  · have hpairs := (ho.depth.filter (isPurged target))
    rw [hsplit] at hpairs
    exact (List.pairwise_cons.1 (List.pairwise_append.1 hpairs).2.1).1 x hlater

/-- What is left after the first `find`: the directory, and the sentinel where it is covered. -/
theorem mem_left {order : List TreeItem} {item : TreeItem} (hx : Excludes target tree)
    (ho : DepthOrder tree order) :
    item ∈ ((PurgeState.start tree).after (order.filter (isPurged target))).present ↔
      item = .root ∨ item = .sentinel ∧ .sentinel ∈ tree.items ∧
        isPurged target .sentinel = false := by
  rw [PurgeState.mem_after, List.mem_filter, ho.perm.mem_iff]
  constructor
  · rintro ⟨hm, hn⟩
    have hnot : isPurged target item = false := Bool.eq_false_iff.2 fun hp => hn ⟨hm, hp⟩
    by_cases hroot : item = .root
    · exact .inl hroot
    · by_cases hsentinel : item = .sentinel
      · rw [hsentinel] at hm hnot
        exact .inr ⟨hsentinel, hm, hnot⟩
      · rw [hx.others item hm hroot hsentinel] at hnot
        cases hnot
  · rintro (rfl | ⟨rfl, hm, hnot⟩)
    · exact ⟨tree.root_mem, fun h => by rw [hx.root] at h; cases h.2⟩
    · exact ⟨hm, fun h => by rw [hnot] at h; cases h.2⟩

theorem excluded_sentinel (h : patternMatches (TreeItem.sentinel.name target)
    (TreeItem.sentinel.name target) = true) : isPurged target .sentinel = false := by
  rw [isPurged, isExcluded, h, Bool.or_true]
  rfl

theorem PurgeState.mem_removeSentinel {s : PurgeState} {item : TreeItem} :
    item ∈ s.removeSentinel.present ↔ item ∈ s.present ∧ item ≠ .sentinel := by
  rw [removeSentinel]
  split
  · exact mem_without
  · rename_i hn
    constructor
    · intro hm
      refine ⟨hm, ?_⟩
      rintro rfl
      exact hn hm
    · exact fun h => h.1

theorem mem_visited {order : List TreeItem} {item : TreeItem} (ho : DepthOrder tree order) :
    item ∈ order.filter (isPurged target) ↔ item ∈ tree.items ∧ isPurged target item = true := by
  rw [List.mem_filter, ho.perm.mem_iff]

theorem visited_nodup {order : List TreeItem} (ho : DepthOrder tree order) :
    (order.filter (isPurged target)).Nodup :=
  (ho.perm.nodup_iff.2 tree.items_nodup).filter _

/-- In what order things went, when the sentinel was kept for the end or there was none to keep. -/
theorem removed_in_order {order : List TreeItem} (hx : Excludes target tree)
    (ho : DepthOrder tree order) (s : PurgeState)
    (hs : s = (PurgeState.start tree).after (order.filter (isPurged target))) :
    (s.removeSentinel.without .root).removed.Perm tree.items ∧
      ∃ others, .sentinel ∉ others ∧ .root ∉ others ∧
        ((s.removeSentinel.without .root).removed = others ++ [.sentinel, .root] ∨
          (s.removeSentinel.without .root).removed = others ++ [.root]) := by
  have hroot : .root ∉ order.filter (isPurged target) := fun h => by
    rw [mem_visited ho, hx.root] at h
    cases h.2
  have hnodup := @visited_nodup target tree order ho
  have hvisited {item : TreeItem} := @mem_visited target tree order item ho
  have hremoved : s.removed = order.filter (isPurged target) := by
    rw [hs]
    rfl
  have hpresent : .sentinel ∈ s.present ↔ .sentinel ∈ tree.items ∧
      isPurged target .sentinel = false := by
    rw [hs, mem_left hx ho]
    simp [TreeItem.root, TreeItem.sentinel]
  generalize order.filter (isPurged target) = visited at *
  rw [PurgeState.removeSentinel]
  split
  · rename_i hm
    obtain ⟨hmem, hnot⟩ := hpresent.1 hm
    have hsentinel : .sentinel ∉ visited := fun h => by
      rw [hvisited, hnot] at h
      cases h.2
    have hlog : ((s.without .sentinel).without .root).removed = visited ++ [.sentinel, .root] := by
      simp [PurgeState.without, hremoved]
    rw [hlog]
    refine ⟨(List.perm_ext_iff_of_nodup ?_ tree.items_nodup).2 fun item => ?_,
      visited, hsentinel, hroot, .inl rfl⟩
    · apply hnodup.append (by decide)
      intro item hv hl
      simp only [List.mem_cons, List.not_mem_nil, or_false] at hl
      rcases hl with rfl | rfl
      · exact hsentinel hv
      · exact hroot hv
    · simp only [List.mem_append, hvisited, List.mem_cons, List.not_mem_nil, or_false]
      constructor
      · rintro (h | rfl | rfl)
        · exact h.1
        · exact hmem
        · exact tree.root_mem
      · intro h
        by_cases hr : item = .root
        · exact .inr (.inr hr)
        · by_cases hse : item = .sentinel
          · exact .inr (.inl hse)
          · exact .inl ⟨h, hx.others item h hr hse⟩
  · rename_i hm
    have hlog : (s.without .root).removed = visited ++ [.root] := by
      simp [PurgeState.without, hremoved]
    have hperm : (visited ++ [TreeItem.root]).Perm tree.items := by
      refine (List.perm_ext_iff_of_nodup ?_ tree.items_nodup).2 fun item => ?_
      · apply hnodup.append (List.nodup_singleton _)
        intro item hv hl
        rw [List.mem_singleton.1 hl] at hv
        exact hroot hv
      · rw [List.mem_append, hvisited, List.mem_singleton]
        constructor
        · rintro (h | rfl)
          · exact h.1
          · exact tree.root_mem
        · intro h
          by_cases hr : item = .root
          · exact .inr hr
          · refine .inl ⟨h, ?_⟩
            by_cases hse : item = .sentinel
            · rw [hse] at h ⊢
              exact Bool.eq_true_of_not_eq_false fun hf => hm (hpresent.2 ⟨h, hf⟩)
            · exact hx.others item h hr hse
    rw [hlog]
    refine ⟨hperm, ?_⟩
    by_cases hsentinel : .sentinel ∈ visited
    · -- Only the sentinel was there, and `find` acted on it.
      have hmem := (hvisited.1 hsentinel).1
      have hpurged := (hvisited.1 hsentinel).2
      rcases hx.sentinel hmem with hmatch | ⟨_, halone⟩
      · rw [excluded_sentinel hmatch] at hpurged
        cases hpurged
      · have hall : ∀ item ∈ visited, item = .sentinel := by
          intro item hv
          rcases halone item (hvisited.1 hv).1 with rfl | h
          · exact absurd hv hroot
          · exact h
        have hone : visited = [.sentinel] := by
          cases visited with
          | nil => cases hsentinel
          | cons a rest =>
            have ha := hall a List.mem_cons_self
            cases rest with
            | nil => rw [ha]
            | cons b rest =>
              have hb := hall b (by simp)
              rw [ha, hb] at hnodup
              exact absurd List.mem_cons_self (List.nodup_cons.1 hnodup).1
        rw [hone]
        exact ⟨[], List.not_mem_nil, List.not_mem_nil, .inl rfl⟩
    · exact ⟨visited, hsentinel, hroot, .inr rfl⟩

/-- Where the patterns cover what they should, the purge goes as it should. -/
theorem Excludes.purged (hx : Excludes target tree) (hb : Batched target tree batches) :
    Purged tree (purgeTree target tree batches) := by
  obtain ⟨order, ho, hflatten⟩ := hb
  have hremoved := removeBatch_visited hx ho
  have hleft {item : TreeItem} := @mem_left target tree order item hx ho
  have hmatches : ∀ item ∈ ((PurgeState.start tree).after (order.filter (isPurged target))).present,
      item ≠ .root → patternMatches (TreeItem.sentinel.name target) (item.name target) = true := by
    intro item hm hne
    rcases hleft.1 hm with rfl | ⟨rfl, hm, hnot⟩
    · exact absurd rfl hne
    · rcases hx.sentinel hm with hmatch | ⟨hpurged, _⟩
      · exact hmatch
      · rw [hpurged] at hnot
        cases hnot
  have hrest : ∀ item ∈ ((PurgeState.start tree).after
      (order.filter (isPurged target))).removeSentinel.present, item = .root := by
    intro item hm
    obtain ⟨hm, hne⟩ := PurgeState.mem_removeSentinel.1 hm
    exact (hleft.1 hm).resolve_right fun h => hne h.1
  obtain ⟨hperm, hlast⟩ := removed_in_order hx ho _ rfl
  rw [← hflatten] at hremoved
  have hpurge := @purgeTree_of target tree batches _ hremoved
    (by rw [hflatten]; exact hleft.2 (.inl rfl)) (by rw [hflatten]; exact hmatches) (by
      rw [hflatten]
      intro item hm
      rw [hrest item hm]
      exact TreeItem.root_not_below _)
  rw [hpurge, hflatten]
  refine ⟨rfl, List.eq_nil_iff_forall_not_mem.2 fun item hm => ?_, hperm, hlast⟩
  obtain ⟨hm, hne⟩ := PurgeState.mem_without.1 hm
  exact hne (hrest item hm)

theorem batched_visit {order : List TreeItem} (ho : DepthOrder tree order) :
    Batched target tree [order.filter (isPurged target)] :=
  ⟨order, ho, by simp⟩

/-- What a purge that goes as it should has left for its last steps. -/
theorem Purged.visited {order : List TreeItem} (ho : DepthOrder tree order)
    (hp : Purged tree (purgeTree target tree [order.filter (isPurged target)])) :
    ∃ s : PurgeState,
      (∀ item, item ∈ s.present ↔ item ∈ tree.items ∧ isPurged target item = false) ∧
      s.removed = order.filter (isPurged target) ∧ .root ∈ s.present ∧
      (∀ item ∈ s.present, item ≠ .root →
        patternMatches (TreeItem.sentinel.name target) (item.name target) = true) ∧
      (purgeTree target tree [order.filter (isPurged target)]).2 =
        s.removeSentinel.without .root := by
  have hok := purgeTree_ok hp.succeeded
  rw [List.flatten_singleton] at hok
  refine ⟨_, fun item => ?_, rfl, hok⟩
  rw [PurgeState.mem_after, mem_visited ho]
  constructor
  · exact fun h => ⟨h.1, Bool.eq_false_iff.2 fun ht => h.2 ⟨h.1, ht⟩⟩
  · exact fun h => ⟨h.1, fun ht => by rw [h.2] at ht; cases ht.2⟩

/-- A purge that goes as it should, however `find` visits the tree, has patterns that cover what
they should. -/
theorem Excludes.of_purged
    (h : ∀ batches, Batched target tree batches → Purged tree (purgeTree target tree batches)) :
    Excludes target tree := by
  obtain ⟨order, ho⟩ := exists_depthOrder tree
  have hp := h _ (batched_visit ho)
  obtain ⟨s, hpresent, _, hroot, hmatches, hend⟩ := hp.visited ho
  have hgone : ∀ item ∈ s.present, item = .root ∨ item = .sentinel := by
    intro item hm
    by_contra hne
    obtain ⟨hr, hse⟩ := not_or.1 hne
    have hleft := PurgeState.mem_without.2 ⟨PurgeState.mem_removeSentinel.2 ⟨hm, hse⟩, hr⟩
    rw [← hend, hp.emptied] at hleft
    cases hleft
  refine ⟨((hpresent _).1 hroot).2, fun item hm hr hse => ?_, fun hm => ?_⟩
  · exact Bool.eq_true_of_not_eq_false fun hf =>
      (hgone item ((hpresent item).2 ⟨hm, hf⟩)).elim hr hse
  · by_cases hpurged : isPurged target .sentinel = true
    · refine .inr ⟨hpurged, fun item hi => ?_⟩
      by_contra hne
      -- Where `find` visits the sentinel first, it goes before the other item.
      obtain ⟨rest, hfirst⟩ := exists_first hm fun x hx => TreeItem.not_below_file hx hm rfl
      have hp' := h _ (batched_visit hfirst)
      obtain ⟨s', _, hremoved, _, _, hend'⟩ := hp'.visited hfirst
      have hsecond : ∃ tail, (purgeTree target tree
          [(TreeItem.sentinel :: rest).filter (isPurged target)]).2.removed =
            .sentinel :: tail := by
        rw [hend', PurgeState.without, PurgeState.removeSentinel]
        split <;>
        · simp only [PurgeState.without, hremoved, List.filter_cons, hpurged, if_true,
            List.cons_append]
          exact ⟨_, rfl⟩
      obtain ⟨tail, htail⟩ := hsecond
      obtain ⟨others, hse, hr, hlast⟩ := hp'.last
      have hitem := hp'.accounted.mem_iff.2 hi
      cases others with
      | cons a others =>
        rw [htail] at hlast
        have ha : TreeItem.sentinel = a := by
          rcases hlast with hl | hl
          · exact (List.cons.inj hl).1
          · exact (List.cons.inj hl).1
        rw [ha] at hse
        exact hse List.mem_cons_self
      | nil =>
        rcases hlast with hl | hl
        · rw [hl] at hitem
          simp only [List.nil_append, List.mem_cons, List.not_mem_nil, or_false] at hitem
          exact hne hitem.symm
        · rw [hl] at htail
          cases htail
    · have hin := (hpresent .sentinel).2 ⟨hm, Bool.eq_false_iff.2 hpurged⟩
      exact .inl (hmatches _ hin (by decide))

/-- However `find` visits the tree, the purge goes as it should exactly if the patterns cover what
they should. -/
theorem purge_complete_iff (target : Text) (tree : OwnedTree) :
    (∀ batches, Batched target tree batches → Purged tree (purgeTree target tree batches)) ↔
      Excludes target tree :=
  ⟨Excludes.of_purged, fun hx _ hb => hx.purged hb⟩

section Ordinary

theorem pathParts_below {path : List Text} (h : ∀ p ∈ path, keptPart p = true ∧ slash ∉ p) :
    pathParts (path.map (slash :: ·)).flatten = path := by
  have hjoin (p : Text) (path : List Text) :
      p ++ (path.map (slash :: ·)).flatten = [slash].intercalate (p :: path) := by
    induction path generalizing p with
    | nil => simp
    | cons q path ih =>
      rw [List.map_cons, List.flatten_cons, List.intercalate_cons_cons, ← ih q]
      simp
  cases path with
  | nil => decide
  | cons p path =>
    rw [List.map_cons, List.flatten_cons, List.cons_append, pathParts_slash, hjoin,
      pathParts_intercalate h]

theorem name_injective {item x : TreeItem} (hi : ∀ p ∈ item.path, keptPart p = true ∧ slash ∉ p)
    (hx : ∀ p ∈ x.path, keptPart p = true ∧ slash ∉ p) (h : item.name target = x.name target) :
    item.path = x.path := by
  rw [← pathParts_below hi, ← pathParts_below hx, List.append_cancel_left h]

theorem sentinel_kept : ∀ p ∈ TreeItem.sentinel.path, keptPart p = true ∧ slash ∉ p := by
  decide +kernel

theorem excludes_ordinary (ho : ∀ c ∈ target, isOrdinary c = true) (tree : OwnedTree) :
    Excludes target tree := by
  have hroot : target = TreeItem.root.name target := (List.append_nil target).symm
  have hsentinel : ∀ c ∈ TreeItem.sentinel.name target, isOrdinary c = true := by
    intro c hc
    rcases List.mem_append.1 hc with hc | hc
    · exact ho c hc
    · exact List.all_eq_true.1 (by decide +kernel : ((TreeItem.sentinel.path.map
        (slash :: ·)).flatten.all isOrdinary) = true) c hc
  have hself : isPurged target .root = false := by
    rw [isPurged, isExcluded, (patternMatches_ordinary ho _).2 hroot.symm]
    rfl
  refine ⟨hself, fun item hm hr hse => ?_,
    fun _ => .inl ((patternMatches_ordinary hsentinel _).2 rfl)⟩
  have hkept := tree.names item hm
  rw [isPurged, isExcluded, Bool.not_eq_true', Bool.or_eq_false_iff]
  constructor
  · apply Bool.eq_false_iff.2
    intro h
    have hname := ((patternMatches_ordinary ho _).1 h).trans hroot
    exact hr (OwnedTree.eq_of_path hm tree.root_mem
      (name_injective hkept (fun _ hp => absurd hp List.not_mem_nil) hname))
  · apply Bool.eq_false_iff.2
    intro h
    have hname := (patternMatches_ordinary hsentinel _).1 h
    exact hse (OwnedTree.eq_sentinel hm (name_injective hkept sentinel_kept hname))

end Ordinary

/-- A directory with its sentinel and one other file. -/
def oneFileTree : OwnedTree where
  items := [.root, .sentinel, ⟨[text "log"], false⟩]
  nodup := by decide +kernel
  names := by decide +kernel
  parents := by
    intro item hm path hp hne
    have hlen : ∀ item ∈ [TreeItem.root, .sentinel, ⟨[text "log"], false⟩],
        item.path.length ≤ 1 := by decide +kernel
    have hlt : path.length < item.path.length :=
      Nat.lt_of_le_of_ne hp.length_le fun he => hne (hp.eq_of_length he)
    have hnil : path.length < 1 := Nat.lt_of_lt_of_le hlt (hlen item hm)
    rw [List.length_eq_zero_iff.1 (Nat.lt_one_iff.1 hnil)]
    exact List.mem_cons_self
  root_mem := List.mem_cons_self
  sentinel_file := by decide +kernel

/-- A path with a bracket expression does not match itself, so the directory goes too early. -/
theorem bracket_path_not_purged : validPath (text "/home/me/state[1]") = true ∧
    ¬∀ batches, Batched (text "/home/me/state[1]") oneFileTree batches →
      Purged oneFileTree (purgeTree (text "/home/me/state[1]") oneFileTree batches) := by
  refine ⟨by decide +kernel, fun h => ?_⟩
  have hx : Excludes (text "/home/me/state[1]") oneFileTree := .of_purged h
  exact absurd hx.root (by decide +kernel)

end GoalRouter
