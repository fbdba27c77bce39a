import GoalRouter.Library.Dict

namespace Library
set_option autoImplicit true

namespace Dict

variable {κ ν : Type} [LinearOrder κ]

/-- `d.setdefault(key(x), []).append(x)` for each `x`. -/
def groupBy (key : ν → κ) (l : List ν) : Dict κ (List ν) :=
  l.foldl (fun m x => m.set (key x) ((m.get? (key x)).getD [] ++ [x])) ∅

theorem get?_groupBy (key : ν → κ) (l : List ν) (k : κ) :
    ((groupBy key l).get? k).getD [] = l.filter fun x => key x = k := by
  have grow (l : List ν) (m : Dict κ (List ν)) :
      ((l.foldl (fun m x => m.set (key x) ((m.get? (key x)).getD [] ++ [x])) m).get? k).getD [] =
        (m.get? k).getD [] ++ l.filter fun x => key x = k := by
    induction l generalizing m with
    | nil => exact (List.append_nil _).symm
    | cons x l ih =>
      rw [List.foldl_cons, ih, get?_set]
      rw [List.filter_cons]
      by_cases hk : key x = k
      · subst hk
        rw [if_pos rfl, if_pos (decide_eq_true rfl), Option.getD_some, List.append_assoc,
          List.singleton_append]
      · rw [if_neg (Ne.symm hk), if_neg fun h => hk (of_decide_eq_true h)]
  rw [groupBy, grow]
  rfl

theorem mem_keys_groupBy {key : ν → κ} {l : List ν} {k : κ} :
    k ∈ (groupBy key l).keys ↔ ∃ x ∈ l, key x = k := by
  have grow (l : List ν) (m : Dict κ (List ν)) :
      k ∈ (l.foldl (fun m x => m.set (key x) ((m.get? (key x)).getD [] ++ [x])) m).keys ↔
        k ∈ m.keys ∨ ∃ x ∈ l, key x = k := by
    induction l generalizing m with
    | nil => simp
    | cons x l ih =>
      rw [List.foldl_cons, ih, mem_keys_set, List.exists_mem_cons_iff]
      constructor
      · rintro ((rfl | hm) | hl)
        · exact .inr (.inl rfl)
        · exact .inl hm
        · exact .inr (.inr hl)
      · rintro (hm | rfl | hl)
        · exact .inl (.inr hm)
        · exact .inl (.inl rfl)
        · exact .inr hl
  rw [groupBy, grow]
  exact or_iff_right List.not_mem_nil

end Dict

/-- `l[offset : offset + n] for offset in range(0, len(l), n)`. -/
def slices (n : Nat) (l : List α) : List (List α) :=
  (List.range ((l.length + n - 1) / n)).map fun i => (l.drop (i * n)).take n

theorem flatten_slices {n : Nat} (hn : 0 < n) (l : List α) : (slices n l).flatten = l := by
  have front (k : Nat) :
      ((List.range k).map fun i => (l.drop (i * n)).take n).flatten = l.take (k * n) := by
    induction k with
    | zero => simp
    | succ k ih =>
      rw [List.range_succ, List.map_append, List.flatten_append, ih, List.map_singleton,
        List.flatten_singleton, Nat.add_mul, Nat.one_mul, List.take_add]
  rw [slices, front]
  apply List.take_of_length_le
  have := Nat.lt_div_mul_add hn (a := l.length + n - 1)
  omega

theorem length_of_mem_slices {n : Nat} {l b : List α} (h : b ∈ slices n l) : b.length ≤ n := by
  obtain ⟨i, -, rfl⟩ := List.mem_map.1 h
  rw [List.length_take]
  exact Nat.min_le_left _ _

end Library
