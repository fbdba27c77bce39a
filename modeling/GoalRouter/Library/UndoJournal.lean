import Mathlib.Data.List.Nodup
import Mathlib.Logic.Function.Basic

namespace Library
set_option autoImplicit true

/-- Whether a key had a value before it was replaced. -/
inductive UndoKind where
  | existing
  | new
  deriving DecidableEq

/-- A store whose values are replaced one after the other, the old ones kept aside until they are
discarded. -/
structure UndoJournal (K V : Type) where
  current : K → Option V
  saved : K → Option V
  journal : List (UndoKind × K)
  /-- The keys whose saved values have been discarded. -/
  discarded : List K

namespace UndoJournal

variable {K V : Type}

def start (current saved : K → Option V) : UndoJournal K V := ⟨current, saved, [], []⟩

def record (σ : UndoJournal K V) (kind : UndoKind) (k : K) : UndoJournal K V :=
  { σ with journal := σ.journal ++ [(kind, k)] }

def keys (σ : UndoJournal K V) : List K := σ.journal.map Prod.snd

/-- Undoing the journal brings back the old value of every key that has not been discarded. -/
structure Recoverable (old new : K → Option V) (σ : UndoJournal K V) : Prop where
  nodup : σ.keys.Nodup
  untouched : ∀ k, k ∉ σ.keys → σ.current k = old k
  existing : ∀ k, (.existing, k) ∈ σ.journal → k ∉ σ.discarded →
    σ.saved k = old k ∧ (old k).isSome = true ∨ σ.saved k = none ∧ σ.current k = old k
  fresh : ∀ k, (.new, k) ∈ σ.journal → old k = none ∧ σ.saved k = none
  discarded : ∀ k, k ∈ σ.discarded →
    (.existing, k) ∈ σ.journal ∧ σ.saved k = none ∧ σ.current k = new k

/-- Every key in the journal has its new value, and its old one is kept unless discarded. -/
structure Replaced (old new : K → Option V) (σ : UndoJournal K V) : Prop where
  nodup : σ.keys.Nodup
  untouched : ∀ k, k ∉ σ.keys → σ.current k = old k
  replaced : ∀ k, k ∈ σ.keys → σ.current k = new k
  existing : ∀ k, (.existing, k) ∈ σ.journal → k ∉ σ.discarded →
    σ.saved k = old k ∧ (old k).isSome = true
  fresh : ∀ k, (.new, k) ∈ σ.journal → old k = none ∧ σ.saved k = none
  discarded : ∀ k, k ∈ σ.discarded → (.existing, k) ∈ σ.journal ∧ σ.saved k = none

variable {old new : K → Option V} {σ : UndoJournal K V} {k k' : K} {kind : UndoKind}

theorem Replaced.recoverable (h : Replaced old new σ) : Recoverable old new σ where
  nodup := h.nodup
  untouched := h.untouched
  existing k hm hd := .inl (h.existing k hm hd)
  fresh := h.fresh
  discarded k hd :=
    ⟨(h.discarded k hd).1, (h.discarded k hd).2,
      h.replaced k (List.mem_map_of_mem (h.discarded k hd).1)⟩

theorem replaced_start (current saved : K → Option V) :
    Replaced current new (start current saved) where
  nodup := List.nodup_nil
  untouched _ _ := rfl
  replaced _ hk := absurd hk List.not_mem_nil
  existing _ hk := absurd hk List.not_mem_nil
  fresh _ hk := absurd hk List.not_mem_nil
  discarded _ hk := absurd hk List.not_mem_nil

@[simp] theorem keys_record (σ : UndoJournal K V) (kind : UndoKind) (k : K) :
    (σ.record kind k).keys = σ.keys ++ [k] := by
  simp [keys, record]

theorem mem_record {σ : UndoJournal K V} {kind kind' : UndoKind} :
    (kind', k') ∈ (σ.record kind k).journal ↔
      (kind', k') ∈ σ.journal ∨ kind' = kind ∧ k' = k := by
  simp [record]

theorem nodup_record (h : σ.keys.Nodup) (hk : k ∉ σ.keys) (kind : UndoKind) :
    (σ.record kind k).keys.Nodup := by
  rw [keys_record]
  exact List.nodup_append.2 ⟨h, List.nodup_singleton k, by
    intro a ha b hb he
    rw [List.mem_singleton.1 hb] at he
    exact hk (he ▸ ha)⟩

theorem ne_of_mem (hk : k ∉ σ.keys) (hm : (kind, k') ∈ σ.journal) : k' ≠ k :=
  fun he => hk (he ▸ List.mem_map_of_mem hm)

/-- The key to be replaced has been recorded as a new one. -/
theorem Replaced.record_new (h : Replaced old new σ) (hk : k ∉ σ.keys) (ho : old k = none)
    (hs : σ.saved k = none) :
    Recoverable old new (σ.record .new k) where
  nodup := nodup_record h.nodup hk _
  untouched k' hk' := by
    have hk' : k' ∉ σ.keys ++ [k] := keys_record σ .new k ▸ hk'
    exact h.untouched k' fun hm => hk' (List.mem_append_left _ hm)
  existing k' hm hd := by
    rcases mem_record.1 hm with hm | ⟨hkind, _⟩
    · exact .inl (h.existing k' hm hd)
    · cases hkind
  fresh k' hm := by
    rcases mem_record.1 hm with hm | ⟨_, rfl⟩
    · exact h.fresh k' hm
    · exact ⟨ho, hs⟩
  discarded k' hd := by
    obtain ⟨hm, hs⟩ := h.discarded k' hd
    exact ⟨mem_record.2 (.inl hm), hs, h.replaced k' (List.mem_map_of_mem hm)⟩

variable [DecidableEq K]

def put (σ : UndoJournal K V) (k : K) (v : Option V) : UndoJournal K V :=
  { σ with current := Function.update σ.current k v }

def keep (σ : UndoJournal K V) (k : K) (v : Option V) : UndoJournal K V :=
  { σ with saved := Function.update σ.saved k v }

/-- Give up the saved value of a key, if it has one. -/
def discard (σ : UndoJournal K V) (k : K) : UndoJournal K V :=
  if (σ.saved k).isSome then { σ.keep k none with discarded := k :: σ.discarded } else σ

@[simp] theorem journal_discard (σ : UndoJournal K V) (k : K) :
    (σ.discard k).journal = σ.journal := by
  unfold discard
  split <;> rfl

@[simp] theorem keys_discard (σ : UndoJournal K V) (k : K) : (σ.discard k).keys = σ.keys := by
  rw [keys, journal_discard, keys]

theorem put_eq_self {v : Option V} (h : σ.current k = v) : σ.put k v = σ := by
  rw [put, ← h, Function.update_eq_self]

theorem keep_eq_self {v : Option V} (h : σ.saved k = v) : σ.keep k v = σ := by
  rw [keep, ← h, Function.update_eq_self]

theorem put_keep_put (σ : UndoJournal K V) (k : K) (v v' v'' : Option V) :
    ((σ.put k v').keep k v).put k v'' = (σ.keep k v).put k v'' := by
  simp only [put, keep, Function.update_idem]

/-- The value of a key after the entries have been undone. -/
def undone (σ : UndoJournal K V) : List (UndoKind × K) → K → Option V
  | [], k => σ.current k
  | (kind, k') :: entries, k =>
    if k = k' then
      match kind with
      | .existing => if (σ.saved k).isSome then σ.saved k else σ.current k
      | .new => none
    else σ.undone entries k

theorem undone_cons_ne {entries : List (UndoKind × K)} (h : k ≠ k') :
    σ.undone ((kind, k') :: entries) k = σ.undone entries k :=
  if_neg h

theorem undone_cons_self (σ : UndoJournal K V) (kind : UndoKind) (k : K)
    (entries : List (UndoKind × K)) :
    σ.undone ((kind, k) :: entries) k = σ.undone [(kind, k)] k := by
  simp only [undone, if_pos]

theorem undone_of_not_mem {entries : List (UndoKind × K)} (h : k ∉ entries.map Prod.snd) :
    σ.undone entries k = σ.current k := by
  induction entries with
  | nil => rfl
  | cons e entries ih =>
    obtain ⟨hne, h⟩ := List.ne_and_not_mem_of_not_mem_cons h
    rw [← ih h]
    exact undone_cons_ne hne

theorem undone_existing {entries : List (UndoKind × K)} (hn : (entries.map Prod.snd).Nodup)
    (h : (.existing, k) ∈ entries) :
    σ.undone entries k = if (σ.saved k).isSome then σ.saved k else σ.current k := by
  induction entries with
  | nil => cases h
  | cons e entries ih =>
    obtain ⟨hne, hn⟩ := List.nodup_cons.1 hn
    rcases List.mem_cons.1 h with rfl | h
    · exact if_pos rfl
    · rw [← ih hn h]
      exact undone_cons_ne fun he => hne (he ▸ List.mem_map_of_mem h)

theorem undone_new {entries : List (UndoKind × K)} (hn : (entries.map Prod.snd).Nodup)
    (h : (.new, k) ∈ entries) : σ.undone entries k = none := by
  induction entries with
  | nil => cases h
  | cons e entries ih =>
    obtain ⟨hne, hn⟩ := List.nodup_cons.1 hn
    rcases List.mem_cons.1 h with rfl | h
    · exact if_pos rfl
    · rw [← ih hn h]
      exact undone_cons_ne fun he => hne (he ▸ List.mem_map_of_mem h)

theorem undone_congr {σ σ' : UndoJournal K V} (hc : σ'.current k = σ.current k)
    (hs : σ'.saved k = σ.saved k) (entries : List (UndoKind × K)) :
    σ'.undone entries k = σ.undone entries k := by
  induction entries with
  | nil => exact hc
  | cons e entries ih =>
    obtain ⟨kind, k'⟩ := e
    simp only [undone, hc, hs, ih]

theorem Recoverable.undone (h : Recoverable old new σ) (k : K) :
    σ.undone σ.journal k = if k ∈ σ.discarded then new k else old k := by
  by_cases hk : k ∈ σ.keys
  · obtain ⟨⟨kind, k'⟩, hm, he⟩ := List.mem_map.1 hk
    have he : k' = k := he
    subst he
    cases kind with
    | existing =>
      rw [undone_existing h.nodup hm]
      by_cases hd : k' ∈ σ.discarded
      · obtain ⟨_, hs, hc⟩ := h.discarded k' hd
        rw [if_pos hd, hs]
        exact hc
      · rw [if_neg hd]
        rcases h.existing k' hm hd with ⟨hs, ho⟩ | ⟨hs, hc⟩
        · rw [hs, if_pos ho]
        · rw [hs]
          exact hc
    | new =>
      have hd : k' ∉ σ.discarded := by
        intro hd
        have hm' := (h.discarded k' hd).1
        have he := List.inj_on_of_nodup_map h.nodup hm hm' rfl
        cases he
      rw [undone_new h.nodup hm, if_neg hd, (h.fresh k' hm).1]
  · have hd : k ∉ σ.discarded := fun hd => hk (List.mem_map_of_mem (h.discarded k hd).1)
    rw [undone_of_not_mem hk, if_neg hd, h.untouched k hk]

section Replacing

variable (h : Replaced old new σ) (hk : k ∉ σ.keys)
include h hk

/-- The key to be replaced has been recorded and still has its old value, or its old value has
been moved aside. -/
theorem Replaced.record_existing (ho : (old k).isSome = true) (v v' : Option V)
    (hv : v = none ∧ v' = old k ∨ v = old k) :
    Recoverable old new (((σ.record .existing k).put k v').keep k v) where
  nodup := nodup_record h.nodup hk _
  untouched k' hk' := by
    have hk' : k' ∉ σ.keys ++ [k] := keys_record σ .existing k ▸ hk'
    have hne : k' ≠ k := fun he => hk' (List.mem_append_right _ (List.mem_singleton.2 he))
    exact (Function.update_of_ne hne _ _).trans
      (h.untouched k' fun hm => hk' (List.mem_append_left _ hm))
  existing k' hm hd := by
    rcases mem_record.1 hm with hm | ⟨_, rfl⟩
    · have hne := ne_of_mem hk hm
      have hs : (((σ.record .existing k).put k v').keep k v).saved k' = σ.saved k' :=
        Function.update_of_ne hne _ _
      rw [hs]
      exact .inl (h.existing k' hm hd)
    · have hs : (((σ.record .existing k').put k' v').keep k' v).saved k' = v :=
        Function.update_self _ _ _
      have hc : (((σ.record .existing k').put k' v').keep k' v).current k' = v' :=
        Function.update_self _ _ _
      rw [hs, hc]
      exact hv.symm.imp_left fun hv => ⟨hv, ho⟩
  fresh k' hm := by
    rcases mem_record.1 hm with hm | ⟨hkind, _⟩
    · have hne := ne_of_mem hk hm
      exact ⟨(h.fresh k' hm).1, (Function.update_of_ne hne _ _).trans (h.fresh k' hm).2⟩
    · cases hkind
  discarded k' hd := by
    obtain ⟨hm, hs⟩ := h.discarded k' hd
    have hne := ne_of_mem hk hm
    refine ⟨mem_record.2 (.inl hm), (Function.update_of_ne hne _ _).trans hs, ?_⟩
    exact (Function.update_of_ne hne _ _).trans (h.replaced k' (List.mem_map_of_mem hm))

theorem Replaced.replace (kind : UndoKind) (v : Option V)
    (hv : match kind with
      | .existing => v = old k ∧ (old k).isSome = true
      | .new => v = none ∧ old k = none) :
    Replaced old new (((σ.record kind k).keep k v).put k (new k)) where
  nodup := nodup_record h.nodup hk _
  untouched k' hk' := by
    have hk' : k' ∉ σ.keys ++ [k] := keys_record σ kind k ▸ hk'
    have hne : k' ≠ k := fun he => hk' (List.mem_append_right _ (List.mem_singleton.2 he))
    exact (Function.update_of_ne hne _ _).trans
      (h.untouched k' fun hm => hk' (List.mem_append_left _ hm))
  replaced k' hk' := by
    by_cases hne : k' = k
    · cases hne
      exact Function.update_self _ _ _
    · have hk' : k' ∈ σ.keys ++ [k] := keys_record σ kind k ▸ hk'
      rcases List.mem_append.1 hk' with hm | hm
      · exact (Function.update_of_ne hne _ _).trans (h.replaced k' hm)
      · exact absurd (List.mem_singleton.1 hm) hne
  existing k' hm hd := by
    rcases mem_record.1 hm with hm | ⟨rfl, rfl⟩
    · have hne := ne_of_mem hk hm
      have hs : (((σ.record kind k).keep k v).put k (new k)).saved k' = σ.saved k' :=
        Function.update_of_ne hne _ _
      rw [hs]
      exact h.existing k' hm hd
    · exact ⟨(Function.update_self _ _ _).trans hv.1, hv.2⟩
  fresh k' hm := by
    rcases mem_record.1 hm with hm | ⟨rfl, rfl⟩
    · have hne := ne_of_mem hk hm
      exact ⟨(h.fresh k' hm).1, (Function.update_of_ne hne _ _).trans (h.fresh k' hm).2⟩
    · exact ⟨hv.2, (Function.update_self _ _ _).trans hv.1⟩
  discarded k' hd := by
    obtain ⟨hm, hs⟩ := h.discarded k' hd
    exact ⟨mem_record.2 (.inl hm), (Function.update_of_ne (ne_of_mem hk hm) _ _).trans hs⟩

end Replacing

theorem Replaced.discard (h : Replaced old new σ) (hk : (kind, k) ∈ σ.journal) :
    Replaced old new (σ.discard k) := by
  rw [UndoJournal.discard]
  split
  · rename_i hs
    have hm : (.existing, k) ∈ σ.journal := by
      cases kind with
      | existing => exact hk
      | new =>
        rw [(h.fresh k hk).2] at hs
        cases hs
    refine ⟨h.nodup, h.untouched, h.replaced, fun k' hm' hd => ?_, fun k' hm' => ?_,
      fun k' hd => ?_⟩
    · obtain ⟨hne, hd⟩ := List.ne_and_not_mem_of_not_mem_cons hd
      obtain ⟨hs', ho⟩ := h.existing k' hm' hd
      exact ⟨(Function.update_of_ne hne _ _).trans hs', ho⟩
    · have hne : k' ≠ k := by
        intro he
        subst he
        have he := List.inj_on_of_nodup_map h.nodup hm hm' rfl
        cases he
      exact ⟨(h.fresh k' hm').1, (Function.update_of_ne hne _ _).trans (h.fresh k' hm').2⟩
    · by_cases hne : k' = k
      · cases hne
        exact ⟨hm, Function.update_self _ _ _⟩
      · rcases List.mem_cons.1 hd with he | hd
        · exact absurd he hne
        · exact ⟨(h.discarded k' hd).1,
            (Function.update_of_ne hne _ _).trans (h.discarded k' hd).2⟩
  · exact h

end UndoJournal

end Library
