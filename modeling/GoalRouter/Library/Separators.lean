import Mathlib.Data.List.Basic

namespace Library
set_option autoImplicit true

variable {α : Type} [DecidableEq α]

/-- What stands before the first separator, and all that follows it. -/
def splitFirst (sep : α) (l : List α) : Option (List α × List α) :=
  if sep ∈ l then some (l.takeWhile (· ≠ sep), (l.dropWhile (· ≠ sep)).tail) else none

theorem splitFirst_append {sep : α} {a : List α} (h : sep ∉ a) (b : List α) :
    splitFirst sep (a ++ sep :: b) = some (a, b) := by
  have ha : ∀ x ∈ a, decide (x ≠ sep) = true := fun x hx =>
    decide_eq_true fun he => h (he ▸ hx)
  rw [splitFirst, if_pos (List.mem_append_right a List.mem_cons_self),
    List.takeWhile_append_of_pos ha, List.dropWhile_append_of_pos ha]
  simp

/-- Each record ends with the separator. -/
def terminate (sep : α) (records : List (List α)) : List α :=
  records.flatMap fun record => record ++ [sep]

theorem splitOn_terminate {sep : α} {records : List (List α)}
    (h : ∀ record ∈ records, sep ∉ record) :
    (terminate sep records).splitOn sep = records ++ [[]] := by
  induction records with
  | nil => rfl
  | cons record records ih =>
    have hr := List.splitOn_append_cons_self_of_not_mem (h record List.mem_cons_self)
      (terminate sep records)
    rw [ih fun r hr => h r (List.mem_cons_of_mem _ hr)] at hr
    rw [terminate, List.flatMap_cons, List.append_assoc, List.singleton_append]
    exact hr

end Library
