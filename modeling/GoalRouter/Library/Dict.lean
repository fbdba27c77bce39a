import GoalRouter.Library.SortedMap

namespace Library
set_option autoImplicit true

variable {κ ν μ : Type} [LinearOrder κ]

/-- Set an entry in place, or add it at the end. -/
def setEntry (k : κ) (v : ν) : List (κ × ν) → List (κ × ν)
  | [] => [(k, v)]
  | (k', v') :: rest => if k = k' then (k, v) :: rest else (k', v') :: setEntry k v rest

theorem lookup_setEntry (k k' : κ) (v : ν) (l : List (κ × ν)) :
    lookup k' (setEntry k v l) = if k' = k then some v else lookup k' l := by
  induction l with
  | nil => rfl
  | cons e rest ih =>
    obtain ⟨j, u⟩ := e
    simp only [setEntry]
    split
    · rename_i hk
      subst hk
      by_cases h : k' = k <;> simp [lookup_cons, h]
    · rename_i hk
      rw [lookup_cons, ih, lookup_cons]
      by_cases h : k' = j
      · rw [if_pos h, if_pos h, if_neg (h ▸ Ne.symm hk)]
      · rw [if_neg h, if_neg h]

theorem mem_setEntry {k : κ} {v : ν} {l : List (κ × ν)} {j : κ}
    (h : j ∈ (setEntry k v l).map Prod.fst) : j = k ∨ j ∈ l.map Prod.fst := by
  induction l with
  | nil => simpa [setEntry] using h
  | cons e rest ih =>
    simp only [setEntry] at h
    split at h
    · rename_i hk
      exact .inr (by simpa [← hk] using h)
    · rcases List.mem_cons.1 h with he | hr
      · exact .inr (he ▸ List.mem_cons_self)
      · exact (ih hr).imp_right (List.mem_cons_of_mem _)

theorem nodup_setEntry {k : κ} {v : ν} {l : List (κ × ν)} (h : (l.map Prod.fst).Nodup) :
    ((setEntry k v l).map Prod.fst).Nodup := by
  induction l with
  | nil => simp [setEntry]
  | cons e rest ih =>
    obtain ⟨hn, hr⟩ := List.nodup_cons.1 h
    simp only [setEntry]
    split
    · rename_i hk
      exact List.nodup_cons.2 ⟨hk ▸ hn, hr⟩
    · rename_i hk
      refine List.nodup_cons.2 ⟨fun hm => ?_, ih hr⟩
      rcases mem_setEntry hm with he | hm
      · exact hk he.symm
      · exact hn hm

theorem lookup_eq_some_of_nodup {l : List (κ × ν)} (h : (l.map Prod.fst).Nodup) {k : κ} {v : ν} :
    lookup k l = some v ↔ (k, v) ∈ l := by
  refine ⟨mem_of_lookup, fun hm => ?_⟩
  induction l with
  | nil => cases hm
  | cons e rest ih =>
    obtain ⟨j, u⟩ := e
    obtain ⟨hn, hr⟩ := List.nodup_cons.1 h
    rw [lookup_cons]
    rcases List.mem_cons.1 hm with he | hm
    · obtain ⟨rfl, rfl⟩ := Prod.mk.inj he
      rw [if_pos rfl]
    · have hk : k ≠ j := fun he => hn (he ▸ List.mem_map.2 ⟨_, hm, rfl⟩)
      rw [if_neg hk, ih hr hm]

/-- A Python dictionary: its entries in insertion order, each key once. -/
structure Dict (κ ν : Type) [LinearOrder κ] where
  entries : List (κ × ν)
  nodup : (entries.map Prod.fst).Nodup

namespace Dict

instance [DecidableEq ν] : DecidableEq (Dict κ ν) := fun m m' =>
  decidable_of_iff (m.entries = m'.entries)
    ⟨fun h => by cases m; cases m'; cases h; rfl, fun h => congrArg _ h⟩

def empty : Dict κ ν := ⟨[], .nil⟩

instance : EmptyCollection (Dict κ ν) := ⟨empty⟩
instance : Inhabited (Dict κ ν) := ⟨empty⟩

def get? (m : Dict κ ν) (k : κ) : Option ν := lookup k m.entries

def contains (m : Dict κ ν) (k : κ) : Bool := (m.get? k).isSome

/-- `d[k] = v`. -/
def set (m : Dict κ ν) (k : κ) (v : ν) : Dict κ ν :=
  ⟨setEntry k v m.entries, nodup_setEntry m.nodup⟩

def keys (m : Dict κ ν) : List κ := m.entries.map Prod.fst

def values (m : Dict κ ν) : List ν := m.entries.map Prod.snd

def size (m : Dict κ ν) : Nat := m.entries.length

def ofList (l : List (κ × ν)) : Dict κ ν := l.foldl (fun m e => m.set e.1 e.2) empty

def map (f : ν → μ) (m : Dict κ ν) : Dict κ μ :=
  ⟨m.entries.map fun e => (e.1, f e.2), by
    rw [List.map_map]
    exact m.nodup⟩

/-- `sorted(d.items())`. -/
def sorted (m : Dict κ ν) : SortedMap κ ν := SortedMap.ofList m.entries

def ofSorted (m : SortedMap κ ν) : Dict κ ν := ⟨m.entries, m.keys_nodup⟩

@[simp] theorem get?_empty (k : κ) : (∅ : Dict κ ν).get? k = none := rfl

@[simp] theorem keys_empty : (∅ : Dict κ ν).keys = [] := rfl

theorem get?_set (m : Dict κ ν) (k k' : κ) (v : ν) :
    (m.set k v).get? k' = if k' = k then some v else m.get? k' :=
  lookup_setEntry k k' v m.entries

@[simp] theorem get?_set_self (m : Dict κ ν) (k : κ) (v : ν) : (m.set k v).get? k = some v := by
  rw [get?_set, if_pos rfl]

theorem get?_set_of_ne (m : Dict κ ν) {k k' : κ} (v : ν) (h : k' ≠ k) :
    (m.set k v).get? k' = m.get? k' := by
  rw [get?_set, if_neg h]

@[simp] theorem get?_map (f : ν → μ) (m : Dict κ ν) (k : κ) : (m.map f).get? k = (m.get? k).map f :=
  lookup_map_snd f m.entries k

theorem mem_entries {m : Dict κ ν} {k : κ} {v : ν} : (k, v) ∈ m.entries ↔ m.get? k = some v :=
  (lookup_eq_some_of_nodup m.nodup).symm

theorem mem_keys {m : Dict κ ν} {k : κ} : k ∈ m.keys ↔ ∃ v, m.get? k = some v := by
  simp only [keys, List.mem_map, Prod.exists, mem_entries]
  constructor
  · rintro ⟨k', v, h, rfl⟩
    exact ⟨v, h⟩
  · rintro ⟨v, h⟩
    exact ⟨k, v, h, rfl⟩

theorem mem_keys_of_get? {m : Dict κ ν} {k : κ} {v : ν} (h : m.get? k = some v) : k ∈ m.keys :=
  mem_keys.2 ⟨v, h⟩

theorem get?_eq_none {m : Dict κ ν} {k : κ} : m.get? k = none ↔ k ∉ m.keys := by
  rw [mem_keys]
  cases m.get? k <;> simp

theorem contains_iff {m : Dict κ ν} {k : κ} : m.contains k = true ↔ k ∈ m.keys := by
  rw [contains, Option.isSome_iff_exists, mem_keys]

theorem mem_values {m : Dict κ ν} {v : ν} : v ∈ m.values ↔ ∃ k, m.get? k = some v := by
  simp only [values, List.mem_map, Prod.exists, mem_entries]
  constructor
  · rintro ⟨k, v', h, rfl⟩
    exact ⟨k, h⟩
  · rintro ⟨k, h⟩
    exact ⟨k, v, h, rfl⟩

@[simp] theorem length_keys (m : Dict κ ν) : m.keys.length = m.size := List.length_map _

theorem mem_keys_set {m : Dict κ ν} {k k' : κ} {v : ν} :
    k' ∈ (m.set k v).keys ↔ k' = k ∨ k' ∈ m.keys := by
  simp only [mem_keys, get?_set]
  by_cases h : k' = k <;> simp [h]

@[simp] theorem keys_map (f : ν → μ) (m : Dict κ ν) : (m.map f).keys = m.keys := by
  simp only [keys, map, List.map_map]
  rfl

theorem mem_keys_of_size_eq {m : Dict κ ν} {m' : Dict κ μ} (h : ∀ k ∈ m.keys, k ∈ m'.keys)
    (hs : m.size = m'.size) {k : κ} (hk : k ∈ m'.keys) : k ∈ m.keys := by
  have hsub : m.keys.Subperm m'.keys := List.subperm_of_subset m.nodup h
  have hle : m'.keys.length ≤ m.keys.length := by simp [hs]
  exact (hsub.perm_of_length_le hle).mem_iff.2 hk

theorem size_eq_of_keys {m : Dict κ ν} {m' : Dict κ μ} (h : ∀ k, k ∈ m.keys ↔ k ∈ m'.keys) :
    m.size = m'.size := by
  rw [← length_keys, ← length_keys]
  exact ((List.perm_ext_iff_of_nodup m.nodup m'.nodup).2 h).length_eq

@[simp] theorem get?_sorted (m : Dict κ ν) (k : κ) : m.sorted.get? k = m.get? k :=
  SortedMap.get?_ofList_of_nodup m.nodup k

@[simp] theorem get?_ofSorted (m : SortedMap κ ν) (k : κ) : (ofSorted m).get? k = m.get? k := rfl

@[simp] theorem sorted_ofSorted (m : SortedMap κ ν) : (ofSorted m).sorted = m :=
  SortedMap.ofList_entries m

theorem mem_sorted_keys {m : Dict κ ν} {k : κ} : k ∈ m.sorted.keys ↔ k ∈ m.keys := by
  simp only [SortedMap.mem_keys, mem_keys, get?_sorted]

@[simp] theorem sorted_map (f : ν → μ) (m : Dict κ ν) : (m.map f).sorted = m.sorted.map f := by
  apply SortedMap.ext
  intro k
  simp

theorem get?_ofList_of_nodup {l : List (κ × ν)} (h : (l.map Prod.fst).Nodup) (k : κ) :
    (ofList l).get? k = lookup k l := by
  have key (l : List (κ × ν)) (h : (l.map Prod.fst).Nodup) (m : Dict κ ν) :
      (l.foldl (fun m e => m.set e.1 e.2) m).get? k = (lookup k l).or (m.get? k) := by
    induction l generalizing m with
    | nil => rfl
    | cons e rest ih =>
      obtain ⟨j, u⟩ := e
      obtain ⟨hn, hr⟩ := List.nodup_cons.1 h
      rw [List.foldl_cons, ih hr, get?_set, lookup_cons]
      by_cases hk : k = j
      · subst hk
        have hnone : lookup k rest = none := lookup_eq_none fun p hp he =>
          hn (List.mem_map.2 ⟨p, hp, he⟩)
        rw [hnone, if_pos rfl, if_pos rfl]
        rfl
      · rw [if_neg hk, if_neg hk]
  rw [ofList, key l h]
  exact Option.or_none

theorem mem_of_get?_ofList {l : List (κ × ν)} {k : κ} {v : ν} (h : (ofList l).get? k = some v) :
    (k, v) ∈ l := by
  have key (l : List (κ × ν)) (m : Dict κ ν)
      (h : (l.foldl (fun m e => m.set e.1 e.2) m).get? k = some v) :
      (k, v) ∈ l ∨ m.get? k = some v := by
    induction l generalizing m with
    | nil => exact .inr h
    | cons e l ih =>
      rcases ih _ h with hl | hm
      · exact .inl (List.mem_cons_of_mem _ hl)
      · rw [get?_set] at hm
        split at hm
        · rename_i hk
          cases hm
          exact .inl (hk ▸ List.mem_cons_self)
        · exact .inr hm
  exact (key l ∅ h).resolve_right nofun

theorem mem_keys_ofList {l : List (κ × ν)} {e : κ × ν} (h : e ∈ l) : e.1 ∈ (ofList l).keys := by
  have key (l : List (κ × ν)) (m : Dict κ ν) (h : e ∈ l ∨ e.1 ∈ m.keys) :
      e.1 ∈ (l.foldl (fun m e => m.set e.1 e.2) m).keys := by
    induction l generalizing m with
    | nil => exact h.resolve_left List.not_mem_nil
    | cons d l ih =>
      apply ih
      rcases h with h | h
      · rcases List.mem_cons.1 h with rfl | h
        · exact .inr (mem_keys_set.2 (.inl rfl))
        · exact .inl h
      · exact .inr (mem_keys_set.2 (.inr h))
  exact key l ∅ (.inl h)

/-- Dictionaries of entries with the same keys and related values have related values. -/
theorem get?_ofList_rel {R : ν → μ → Prop} {l : List (κ × ν)} {l' : List (κ × μ)}
    (h : List.Forall₂ (fun e e' => e.1 = e'.1 ∧ R e.2 e'.2) l l') (k : κ) :
    Option.Rel R ((ofList l).get? k) ((ofList l').get? k) := by
  have key (m : Dict κ ν) (m' : Dict κ μ) (hm : Option.Rel R (m.get? k) (m'.get? k)) :
      Option.Rel R ((l.foldl (fun m e => m.set e.1 e.2) m).get? k)
        ((l'.foldl (fun m e => m.set e.1 e.2) m').get? k) := by
    induction h generalizing m m' with
    | nil => exact hm
    | @cons e e' _ _ he _ ih =>
      apply ih
      rw [get?_set, get?_set, he.1]
      split
      · exact .some he.2
      · exact hm
  exact key empty empty .none

theorem setEntry_of_not_mem {k : κ} {v : ν} {l : List (κ × ν)} (h : k ∉ l.map Prod.fst) :
    setEntry k v l = l ++ [(k, v)] := by
  induction l with
  | nil => rfl
  | cons e l ih =>
    obtain ⟨hk, hl⟩ := not_or.1 (mt List.mem_cons.2 h)
    rw [setEntry, if_neg hk, ih hl, List.cons_append]

theorem ofList_entries {l : List (κ × ν)} (h : (l.map Prod.fst).Nodup) :
    (ofList l).entries = l := by
  have key (l : List (κ × ν)) (m : Dict κ ν) (h : ((m.entries ++ l).map Prod.fst).Nodup) :
      (l.foldl (fun m e => m.set e.1 e.2) m).entries = m.entries ++ l := by
    induction l generalizing m with
    | nil => exact (List.append_nil _).symm
    | cons e l ih =>
      obtain ⟨k, v⟩ := e
      have hk : k ∉ m.entries.map Prod.fst := by
        rw [List.map_append, List.map_cons] at h
        exact fun hm => (List.disjoint_of_nodup_append h) hm List.mem_cons_self
      have he : (m.set k v).entries = m.entries ++ [(k, v)] := setEntry_of_not_mem hk
      rw [List.foldl_cons, ih, he, List.append_assoc, List.singleton_append]
      rwa [he, List.append_assoc, List.singleton_append]
  exact key l empty (by simpa [empty] using h)

end Dict

end Library
