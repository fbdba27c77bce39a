import Mathlib.Data.List.Basic
import Mathlib.Logic.Function.Basic

namespace Library
set_option autoImplicit true

/-- No word of the code is empty, and none begins another. -/
structure PrefixCode (f : α → List β) : Prop where
  nonempty : ∀ a, f a ≠ []
  prefixFree : ∀ a b, f a <+: f b → a = b

variable {f : α → List β}

namespace PrefixCode

/-- Words that tell their length begin no others. -/
theorem of_size (size : List β → Nat) (hi : Function.Injective f) (hne : ∀ a, f a ≠ [])
    (hs : ∀ a rest, size (f a ++ rest) = (f a).length) : PrefixCode f where
  nonempty := hne
  prefixFree a b h := by
    obtain ⟨rest, hr⟩ := h
    have hb := hs b []
    rw [List.append_nil, ← hr, hs a rest, List.length_append] at hb
    have hnil : rest = [] := List.length_eq_zero_iff.1 (by omega)
    rw [hnil, List.append_nil] at hr
    exact hi hr

theorem flatMap_injective (h : PrefixCode f) : Function.Injective (List.flatMap f) := by
  intro xs
  induction xs with
  | nil =>
    intro ys he
    cases ys with
    | nil => rfl
    | cons b ys => exact absurd (List.append_eq_nil_iff.1 he.symm).1 (h.nonempty b)
  | cons a xs ih =>
    intro ys he
    cases ys with
    | nil => exact absurd (List.append_eq_nil_iff.1 he).1 (h.nonempty a)
    | cons b ys =>
      rw [List.flatMap_cons, List.flatMap_cons] at he
      have hab : a = b := by
        have ha : f a <+: f b ++ List.flatMap f ys := ⟨_, he⟩
        rcases List.prefix_or_prefix_of_prefix ha (List.prefix_append ..) with hp | hp
        · exact h.prefixFree a b hp
        · exact (h.prefixFree b a hp).symm
      subst hab
      rw [ih (List.append_cancel_left he)]

end PrefixCode

end Library
