import Mathlib.Data.List.Basic

namespace Library
set_option autoImplicit true

variable {ι : Type} {start : ι → Prop} {rule : ι → List ι → Prop} {S : ι → Prop}

/-- What follows from `start` by rules that conclude one thing from a list of others. -/
inductive Derives (start : ι → Prop) (rule : ι → List ι → Prop) : ι → Prop where
  | start (h : start k) : Derives start rule k
  | rule (h : rule k ds) (hd : ∀ d ∈ ds, Derives start rule d) : Derives start rule k

/-- `S` has all of `start`, and no rule concludes anything from it that it lacks. -/
structure Saturated (start : ι → Prop) (rule : ι → List ι → Prop) (S : ι → Prop) : Prop where
  start : ∀ k, start k → S k
  rule : ∀ k ds, rule k ds → (∀ d ∈ ds, S d) → S k

theorem Saturated.of_derives (h : Saturated start rule S) (hk : Derives start rule k) : S k := by
  induction hk with
  | start hk => exact h.start _ hk
  | rule hr _ ih => exact h.rule _ _ hr ih

end Library
