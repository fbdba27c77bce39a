import Mathlib.Data.List.Basic
import Mathlib.Logic.Relation

namespace Library
set_option autoImplicit true

variable {κ : Type} {deps : κ → List κ}

/-- A list, newest first, in which everything stands after all it depends on. -/
inductive TopologicalOrder (deps : κ → List κ) : List κ → Prop where
  | nil : TopologicalOrder deps []
  | cons : TopologicalOrder deps l → (∀ d ∈ deps k, d ∈ l) → TopologicalOrder deps (k :: l)

namespace TopologicalOrder

/-- Whatever is left, something left depends on nothing that is left. -/
theorem exists_minimal {P : κ → Prop} (h : TopologicalOrder deps l) (hl : ∃ k ∈ l, P k) :
    ∃ k ∈ l, P k ∧ ∀ d ∈ deps k, ¬P d := by
  induction h with
  | nil =>
    obtain ⟨k, hk, _⟩ := hl
    cases hk
  | @cons l k ho hd ih =>
    by_cases ht : ∃ j ∈ l, P j
    · obtain ⟨j, hj, hp⟩ := ih ht
      exact ⟨j, List.mem_cons_of_mem _ hj, hp⟩
    · obtain ⟨j, hj, hp⟩ := hl
      rcases List.mem_cons.1 hj with rfl | hj
      · exact ⟨j, List.mem_cons_self, hp, fun d hdj hpd => ht ⟨d, hd d hdj, hpd⟩⟩
      · exact absurd ⟨j, hj, hp⟩ ht

theorem mono {deps' : κ → List κ} (h : TopologicalOrder deps l)
    (hd : ∀ k ∈ l, ∀ d ∈ deps' k, d ∈ deps k) : TopologicalOrder deps' l := by
  induction h with
  | nil => exact .nil
  | cons _ hc ih =>
    obtain ⟨hk, hd⟩ := List.forall_mem_cons.1 hd
    exact .cons (ih hd) fun d hm => hc d (hk d hm)

theorem filter {p : κ → Bool} (h : TopologicalOrder deps l)
    (hp : ∀ k, p k = true → ∀ d ∈ deps k, p d = true) : TopologicalOrder deps (l.filter p) := by
  induction h with
  | nil => exact .nil
  | @cons l k _ hc ih =>
    rw [List.filter_cons]
    split
    · rename_i hk
      exact .cons ih fun d hd => List.mem_filter.2 ⟨hc d hd, hp k hk d hd⟩
    · exact ih

theorem closed (h : TopologicalOrder deps l) (hk : k ∈ l) (hd : d ∈ deps k) : d ∈ l := by
  induction h with
  | nil => cases hk
  | cons _ hc ih =>
    rcases List.mem_cons.1 hk with rfl | hk
    · exact List.mem_cons_of_mem _ (hc d hd)
    · exact List.mem_cons_of_mem _ (ih hk)

theorem acyclic (h : TopologicalOrder deps l) (hn : l.Nodup) (hk : k ∈ l) :
    ¬Relation.TransGen (fun a b => b ∈ deps a) k k := by
  have hmem {a b : κ} {l : List κ} (h : TopologicalOrder deps l) (ha : a ∈ l)
      (hab : Relation.TransGen (fun a b => b ∈ deps a) a b) : b ∈ l := by
    induction hab with
    | single hb => exact h.closed ha hb
    | tail _ hb ih => exact h.closed ih hb
  induction h with
  | nil => cases hk
  | @cons l j ho hd ih =>
    obtain ⟨hj, hn⟩ := List.nodup_cons.1 hn
    rcases List.mem_cons.1 hk with rfl | hk
    · intro hc
      obtain ⟨d, hkd, hdk⟩ := Relation.TransGen.head'_iff.1 hc
      rcases Relation.reflTransGen_iff_eq_or_transGen.1 hdk with he | hdk
      · exact hj (he ▸ hd d hkd)
      · exact hj (hmem ho (hd d hkd) hdk)
    · exact ih hn hk

end TopologicalOrder

end Library
