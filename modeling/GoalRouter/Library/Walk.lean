import Mathlib.Data.List.FinRange
import Mathlib.Data.List.Perm.Subperm
import Mathlib.Logic.Relation

namespace Library
set_option autoImplicit true

variable {α : Type} {next : α → Option α}

/-- Where following `next` leads in a number of steps, if it leads that far. -/
def walk (next : α → Option α) : Nat → α → Option α
  | 0, a => some a
  | n + 1, a => (next a).bind (walk next n)

abbrev Leads (next : α → Option α) (a b : α) : Prop := next a = some b

theorem walk_add (m n : Nat) (a : α) :
    walk next (m + n) a = (walk next m a).bind (walk next n) := by
  induction m generalizing a with
  | zero => rw [Nat.zero_add, walk, Option.bind_some]
  | succ m ih =>
    rw [Nat.succ_add, walk, walk]
    cases next a with
    | none => rfl
    | some b => exact ih b

theorem walk_isSome_of_le {m n : Nat} (h : m ≤ n) (hn : walk next n a = some b) :
    ∃ c, walk next m a = some c := by
  obtain ⟨k, rfl⟩ := Nat.exists_eq_add_of_le h
  rw [walk_add] at hn
  obtain ⟨c, hc, _⟩ := Option.bind_eq_some_iff.1 hn
  exact ⟨c, hc⟩

theorem transGen_of_walk {n : Nat} (h : walk next (n + 1) a = some b) :
    Relation.TransGen (Leads next) a b := by
  induction n generalizing a with
  | zero =>
    obtain ⟨c, hc, hb⟩ := Option.bind_eq_some_iff.1 h
    cases hb
    exact .single hc
  | succ n ih =>
    obtain ⟨c, hc, hb⟩ := Option.bind_eq_some_iff.1 h
    exact .head hc (ih hb)

theorem exists_walk (h : Relation.TransGen (Leads next) a b) :
    ∃ n, walk next (n + 1) a = some b := by
  induction h with
  | single hc => exact ⟨0, by rw [walk, hc, Option.bind_some, walk]⟩
  | tail _ hc ih =>
    obtain ⟨n, hn⟩ := ih
    refine ⟨n + 1, ?_⟩
    rw [walk_add, hn, Option.bind_some, walk, hc, Option.bind_some, walk]

theorem walk_cycle (h : walk next (n + 1) a = some a) (m : Nat) : ∃ b, walk next m a = some b := by
  have hround (k : Nat) : walk next ((n + 1) * k) a = some a := by
    induction k with
    | zero => rfl
    | succ k ih => rw [Nat.mul_succ, walk_add, ih, Option.bind_some, h]
  exact walk_isSome_of_le (Nat.le_mul_of_pos_left m n.succ_pos) (hround m)

theorem walk_mem {nodes : List α} (hc : ∀ a b, next a = some b → b ∈ nodes) (ha : a ∈ nodes)
    (h : walk next n a = some b) : b ∈ nodes := by
  cases n with
  | zero =>
    cases h
    exact ha
  | succ n =>
    rw [walk_add] at h
    obtain ⟨c, _, hb⟩ := Option.bind_eq_some_iff.1 h
    obtain ⟨d, hd, hb⟩ := Option.bind_eq_some_iff.1 hb
    cases hb
    exact hc _ _ hd

/-- A walk longer than there are nodes comes to one of them twice. -/
theorem exists_cycle {nodes : List α} (hc : ∀ a b, next a = some b → b ∈ nodes) (ha : a ∈ nodes)
    (h : walk next nodes.length a = some b) : ∃ c, Relation.TransGen (Leads next) c c := by
  have hvisit (i : Fin (nodes.length + 1)) : ∃ c, walk next i a = some c :=
    walk_isSome_of_le (Nat.lt_succ_iff.1 i.isLt) h
  choose visit hvisit using hvisit
  have hsub : List.ofFn visit ⊆ nodes := by
    intro c hm
    obtain ⟨i, rfl⟩ := List.mem_ofFn.1 hm
    exact walk_mem hc ha (hvisit i)
  have htwice : ¬Function.Injective visit := by
    intro hi
    have hle := (List.subperm_of_subset (List.nodup_ofFn.2 hi) hsub).length_le
    rw [List.length_ofFn] at hle
    exact absurd hle (Nat.not_succ_le_self _)
  have hcycle (i j : Fin (nodes.length + 1)) (hlt : i < j) (he : visit i = visit j) :
      Relation.TransGen (Leads next) (visit i) (visit i) := by
    obtain ⟨k, hk⟩ := Nat.exists_eq_add_of_lt hlt
    have hj := hvisit j
    rw [hk, Nat.add_assoc, walk_add, hvisit i, Option.bind_some, ← he] at hj
    exact transGen_of_walk hj
  simp only [Function.Injective, not_forall] at htwice
  obtain ⟨i, j, he, hne⟩ := htwice
  rcases Nat.lt_or_gt_of_ne (Fin.val_ne_of_ne hne) with hlt | hlt
  · exact ⟨_, hcycle i j hlt he⟩
  · exact ⟨_, hcycle j i hlt he.symm⟩

/-- There is no cycle exactly if every walk ends within as many steps as there are nodes. -/
theorem acyclic_iff_walks_end {nodes : List α} (hc : ∀ a b, next a = some b → b ∈ nodes) :
    (∀ a, ¬Relation.TransGen (Leads next) a a) ↔
      ∀ a ∈ nodes, walk next nodes.length a = none := by
  constructor
  · intro h a ha
    cases hw : walk next nodes.length a with
    | none => rfl
    | some b =>
      obtain ⟨c, hcycle⟩ := exists_cycle hc ha hw
      exact absurd hcycle (h c)
  · intro h a hcycle
    obtain ⟨n, hn⟩ := exists_walk hcycle
    obtain ⟨c, _, ha⟩ := (Relation.TransGen.tail'_iff).1 hcycle
    obtain ⟨b, hb⟩ := walk_cycle hn nodes.length
    rw [h a (hc c a ha)] at hb
    cases hb

end Library
