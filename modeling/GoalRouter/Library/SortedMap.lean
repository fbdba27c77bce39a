import Mathlib.Data.List.Lex
import Mathlib.Data.List.Nodup
import Mathlib.Data.List.Perm.Subperm
import Mathlib.Order.Fin.Basic

namespace Library
set_option autoImplicit true

variable {κ ν μ : Type} [LinearOrder κ]

/-- Put an entry at its place in a list ordered by key, replacing an entry of the same key. -/
def insertEntry (k : κ) (v : ν) : List (κ × ν) → List (κ × ν)
  | [] => [(k, v)]
  | (k', v') :: rest =>
    if k < k' then (k, v) :: (k', v') :: rest
    else if k' < k then (k', v') :: insertEntry k v rest
    else (k, v) :: rest

/-- The value of the first entry with the given key. -/
def lookup (k : κ) : List (κ × ν) → Option ν
  | [] => none
  | (k', v) :: rest => if k = k' then some v else lookup k rest

theorem lookup_cons (k k' : κ) (v : ν) (l : List (κ × ν)) :
    lookup k ((k', v) :: l) = if k = k' then some v else lookup k l := rfl

theorem lookup_eq_none {k : κ} {l : List (κ × ν)} (h : ∀ e ∈ l, e.1 ≠ k) : lookup k l = none := by
  induction l with
  | nil => rfl
  | cons e l ih =>
    obtain ⟨j, v⟩ := e
    rw [lookup_cons, if_neg (h _ List.mem_cons_self).symm,
      ih fun e he => h e (List.mem_cons_of_mem _ he)]

theorem mem_of_lookup {k : κ} {v : ν} {l : List (κ × ν)} (h : lookup k l = some v) :
    (k, v) ∈ l := by
  induction l with
  | nil => cases h
  | cons e l ih =>
    obtain ⟨j, u⟩ := e
    rw [lookup_cons] at h
    split at h
    · rename_i hk
      cases h
      exact hk ▸ List.mem_cons_self
    · exact List.mem_cons_of_mem _ (ih h)

theorem lookup_map_snd (f : ν → μ) (l : List (κ × ν)) (k : κ) :
    lookup k (l.map fun e => (e.1, f e.2)) = (lookup k l).map f := by
  induction l with
  | nil => rfl
  | cons e l ih =>
    obtain ⟨j, v⟩ := e
    simp only [List.map_cons, lookup_cons, ih]
    split <;> rfl

@[simp] theorem lookup_insertEntry (k k' : κ) (v : ν) (l : List (κ × ν)) :
    lookup k' (insertEntry k v l) = if k' = k then some v else lookup k' l := by
  induction l with
  | nil => rfl
  | cons e rest ih =>
    obtain ⟨j, u⟩ := e
    simp only [insertEntry]
    split
    · rw [lookup_cons]
    · rename_i hlt
      split
      · rename_i hgt
        rw [lookup_cons, ih, lookup_cons]
        by_cases h : k' = j
        · rw [if_pos h, if_pos h, if_neg (h ▸ hgt.ne)]
        · rw [if_neg h, if_neg h]
      · rename_i hge
        have he : j = k := le_antisymm (not_lt.1 hlt) (not_lt.1 hge)
        subst he
        rw [lookup_cons, lookup_cons]
        by_cases h : k' = j
        · rw [if_pos h, if_pos h]
        · rw [if_neg h, if_neg h, if_neg h]

theorem insertEntry_keys_subset {k : κ} {v : ν} {l : List (κ × ν)} {e : κ × ν}
    (h : e ∈ insertEntry k v l) : e = (k, v) ∨ e ∈ l := by
  induction l with
  | nil => simpa [insertEntry] using h
  | cons d rest ih =>
    simp only [insertEntry] at h
    split at h
    · simpa using h
    · split at h
      · rcases List.mem_cons.1 h with he | hr
        · exact .inr (he ▸ List.mem_cons_self)
        · exact (ih hr).imp_right (List.mem_cons_of_mem _)
      · rcases List.mem_cons.1 h with he | hr
        · exact .inl he
        · exact .inr (List.mem_cons_of_mem _ hr)

/-- Entries in strictly increasing key order. -/
def Ordered (l : List (κ × ν)) : Prop := l.Pairwise fun a b => a.1 < b.1

theorem Ordered.insertEntry {l : List (κ × ν)} (h : Ordered l) (k : κ) (v : ν) :
    Ordered (insertEntry k v l) := by
  induction l with
  | nil => exact List.pairwise_singleton _ _
  | cons e rest ih =>
    obtain ⟨j, u⟩ := e
    obtain ⟨hj, hr⟩ := List.pairwise_cons.1 h
    simp only [Library.insertEntry]
    split
    · rename_i hlt
      refine List.pairwise_cons.2 ⟨?_, h⟩
      intro e he
      rcases List.mem_cons.1 he with rfl | he
      · exact hlt
      · exact hlt.trans (hj e he)
    · split
      · rename_i hgt
        refine List.pairwise_cons.2 ⟨?_, ih hr⟩
        intro e he
        rcases insertEntry_keys_subset he with rfl | he
        · exact hgt
        · exact hj e he
      · rename_i hlt hgt
        have he : j = k := le_antisymm (not_lt.1 hlt) (not_lt.1 hgt)
        exact List.pairwise_cons.2 ⟨fun e hm => he ▸ hj e hm, hr⟩

theorem Ordered.lookup_eq_some {l : List (κ × ν)} (h : Ordered l) {k : κ} {v : ν} :
    lookup k l = some v ↔ (k, v) ∈ l := by
  refine ⟨mem_of_lookup, fun hm => ?_⟩
  induction l with
  | nil => cases hm
  | cons e rest ih =>
    obtain ⟨j, u⟩ := e
    obtain ⟨hj, hr⟩ := List.pairwise_cons.1 h
    rw [lookup_cons]
    rcases List.mem_cons.1 hm with he | hm
    · obtain ⟨rfl, rfl⟩ := Prod.mk.inj he
      rw [if_pos rfl]
    · rw [if_neg (hj _ hm).ne', ih hr hm]

theorem Ordered.ext {l l' : List (κ × ν)} (h : Ordered l) (h' : Ordered l')
    (he : ∀ k, lookup k l = lookup k l') : l = l' := by
  have hl : l.Pairwise fun a b => a.1 < b.1 := h
  have hn {l : List (κ × ν)} (h : Ordered l) : l.Nodup :=
    h.imp fun hab heq => absurd (heq ▸ hab) (lt_irrefl _)
  have hp : l.Perm l' := by
    apply (List.perm_ext_iff_of_nodup (hn h) (hn h')).2
    intro ⟨k, v⟩
    rw [← h.lookup_eq_some, ← h'.lookup_eq_some, he]
  exact hp.eq_of_pairwise (fun a b _ _ hab hba => absurd (hab.trans hba) (lt_irrefl _)) hl h'

/-- A finite map: its entries in strictly increasing key order, so that equal maps are equal. -/
structure SortedMap (κ ν : Type) [LinearOrder κ] where
  entries : List (κ × ν)
  ordered : Ordered entries

namespace SortedMap

instance [DecidableEq ν] : DecidableEq (SortedMap κ ν) := fun m m' =>
  decidable_of_iff (m.entries = m'.entries)
    ⟨fun h => by cases m; cases m'; cases h; rfl, fun h => congrArg _ h⟩

def empty : SortedMap κ ν := ⟨[], .nil⟩

instance : EmptyCollection (SortedMap κ ν) := ⟨empty⟩
instance : Inhabited (SortedMap κ ν) := ⟨empty⟩

def get? (m : SortedMap κ ν) (k : κ) : Option ν := lookup k m.entries

def insert (m : SortedMap κ ν) (k : κ) (v : ν) : SortedMap κ ν :=
  ⟨insertEntry k v m.entries, m.ordered.insertEntry k v⟩

/-- The keys in increasing order. -/
def keys (m : SortedMap κ ν) : List κ := m.entries.map Prod.fst

def values (m : SortedMap κ ν) : List ν := m.entries.map Prod.snd

def size (m : SortedMap κ ν) : Nat := m.entries.length

/-- The map of a list of entries, later entries of a key replacing earlier ones. -/
def ofList (l : List (κ × ν)) : SortedMap κ ν :=
  l.foldl (fun m e => m.insert e.1 e.2) empty

def map (f : ν → μ) (m : SortedMap κ ν) : SortedMap κ μ :=
  ⟨m.entries.map fun e => (e.1, f e.2), by
    rw [Ordered, List.pairwise_map]
    exact m.ordered⟩

theorem ext {m m' : SortedMap κ ν} (h : ∀ k, m.get? k = m'.get? k) : m = m' := by
  cases m
  cases m'
  simpa using Ordered.ext ‹_› ‹_› h

@[simp] theorem get?_empty (k : κ) : (∅ : SortedMap κ ν).get? k = none := rfl

@[simp] theorem keys_empty : (∅ : SortedMap κ ν).keys = [] := rfl

theorem get?_insert (m : SortedMap κ ν) (k k' : κ) (v : ν) :
    (m.insert k v).get? k' = if k' = k then some v else m.get? k' :=
  lookup_insertEntry k k' v m.entries

@[simp] theorem get?_insert_self (m : SortedMap κ ν) (k : κ) (v : ν) :
    (m.insert k v).get? k = some v := by
  rw [get?_insert, if_pos rfl]

theorem get?_insert_of_ne (m : SortedMap κ ν) {k k' : κ} (v : ν) (h : k' ≠ k) :
    (m.insert k v).get? k' = m.get? k' := by
  rw [get?_insert, if_neg h]

@[simp] theorem get?_map (f : ν → μ) (m : SortedMap κ ν) (k : κ) :
    (m.map f).get? k = (m.get? k).map f :=
  lookup_map_snd f m.entries k

theorem mem_entries {m : SortedMap κ ν} {k : κ} {v : ν} :
    (k, v) ∈ m.entries ↔ m.get? k = some v :=
  m.ordered.lookup_eq_some.symm

theorem mem_keys {m : SortedMap κ ν} {k : κ} : k ∈ m.keys ↔ ∃ v, m.get? k = some v := by
  simp only [keys, List.mem_map, Prod.exists, mem_entries]
  constructor
  · rintro ⟨k', v, h, rfl⟩
    exact ⟨v, h⟩
  · rintro ⟨v, h⟩
    exact ⟨k, v, h, rfl⟩

theorem get?_eq_none {m : SortedMap κ ν} {k : κ} : m.get? k = none ↔ k ∉ m.keys := by
  rw [mem_keys]
  cases m.get? k <;> simp

theorem mem_values {m : SortedMap κ ν} {v : ν} : v ∈ m.values ↔ ∃ k, m.get? k = some v := by
  simp only [values, List.mem_map, Prod.exists, mem_entries]
  constructor
  · rintro ⟨k, v', h, rfl⟩
    exact ⟨k, h⟩
  · rintro ⟨k, h⟩
    exact ⟨k, v, h, rfl⟩

theorem keys_sorted (m : SortedMap κ ν) : m.keys.Pairwise (· < ·) := by
  rw [keys, List.pairwise_map]
  exact m.ordered

theorem keys_nodup (m : SortedMap κ ν) : m.keys.Nodup :=
  m.keys_sorted.imp fun h => h.ne

@[simp] theorem keys_map (f : ν → μ) (m : SortedMap κ ν) : (m.map f).keys = m.keys := by
  simp only [keys, map, List.map_map]
  rfl

@[simp] theorem length_keys (m : SortedMap κ ν) : m.keys.length = m.size :=
  List.length_map _

theorem mem_keys_insert {m : SortedMap κ ν} {k k' : κ} {v : ν} :
    k' ∈ (m.insert k v).keys ↔ k' = k ∨ k' ∈ m.keys := by
  simp only [mem_keys, get?_insert]
  by_cases h : k' = k <;> simp [h]

theorem map_map {ρ : Type} (g : μ → ρ) (f : ν → μ) (m : SortedMap κ ν) :
    (m.map f).map g = m.map (g ∘ f) := by
  apply ext
  intro k
  simp only [get?_map, Option.map_map]

theorem map_congr {f g : ν → μ} {m : SortedMap κ ν} (h : ∀ k v, m.get? k = some v → f v = g v) :
    m.map f = m.map g := by
  apply ext
  intro k
  simp only [get?_map]
  cases hk : m.get? k with
  | none => rfl
  | some v => simp [h k v hk]

theorem size_eq_of_keys {m : SortedMap κ ν} {m' : SortedMap κ μ}
    (h : ∀ k, k ∈ m.keys ↔ k ∈ m'.keys) : m.size = m'.size := by
  rw [← length_keys, ← length_keys]
  exact ((List.perm_ext_iff_of_nodup m.keys_nodup m'.keys_nodup).2 h).length_eq

theorem mem_keys_of_size_eq {m : SortedMap κ ν} {m' : SortedMap κ μ}
    (h : ∀ k ∈ m.keys, k ∈ m'.keys) (hs : m.size = m'.size) {k : κ} (hk : k ∈ m'.keys) :
    k ∈ m.keys := by
  have hsub : m.keys.Subperm m'.keys := List.subperm_of_subset m.keys_nodup h
  have hle : m'.keys.length ≤ m.keys.length := by simp [hs]
  exact (hsub.perm_of_length_le hle).mem_iff.2 hk

theorem get?_ofList_of_nodup {l : List (κ × ν)} (h : (l.map Prod.fst).Nodup) (k : κ) :
    (ofList l).get? k = lookup k l := by
  have key (l : List (κ × ν)) (h : (l.map Prod.fst).Nodup) (m : SortedMap κ ν) :
      (l.foldl (fun m e => m.insert e.1 e.2) m).get? k = (lookup k l).or (m.get? k) := by
    induction l generalizing m with
    | nil => rfl
    | cons e rest ih =>
      obtain ⟨j, u⟩ := e
      obtain ⟨hn, hr⟩ := List.nodup_cons.1 h
      rw [List.foldl_cons, ih hr, get?_insert, lookup_cons]
      by_cases hk : k = j
      · subst hk
        have hnone : lookup k rest = none := lookup_eq_none fun p hp he =>
          hn (List.mem_map.2 ⟨p, hp, he⟩)
        rw [hnone, if_pos rfl, if_pos rfl]
        rfl
      · rw [if_neg hk, if_neg hk]
  have he : (empty : SortedMap κ ν).get? k = none := rfl
  rw [ofList, key l h, he, Option.or_none]

theorem mem_of_mem_ofList {l : List (κ × ν)} {e : κ × ν} (h : e ∈ (ofList l).entries) :
    e ∈ l := by
  have key (l : List (κ × ν)) (m : SortedMap κ ν)
      (h : e ∈ (l.foldl (fun m e => m.insert e.1 e.2) m).entries) : e ∈ l ∨ e ∈ m.entries := by
    induction l generalizing m with
    | nil => exact .inr h
    | cons d l ih =>
      rcases ih _ h with hl | hm
      · exact .inl (List.mem_cons_of_mem _ hl)
      · rcases insertEntry_keys_subset hm with he | hm
        · exact .inl (List.mem_cons.2 (.inl he))
        · exact .inr hm
  exact (key l empty h).resolve_right (List.not_mem_nil)

@[simp] theorem ofList_entries (m : SortedMap κ ν) : ofList m.entries = m := by
  apply ext
  intro k
  exact get?_ofList_of_nodup m.keys_nodup k

theorem ofList_of_ordered {l : List (κ × ν)} (h : Ordered l) : ofList l = ⟨l, h⟩ :=
  ofList_entries ⟨l, h⟩

end SortedMap

end Library
