import GoalRouter.Library.PurePath
import GoalRouter.Library.StringIndex

namespace Library
set_option autoImplicit true

variable {t p q : Text}

/-- A part between two slashes, counting one at the end, is one of the parts after the first. -/
theorem between_slashes_iff (hp : slash ∉ p) :
    slash :: (p ++ [slash]) <:+: t ++ [slash] ↔ p ∈ (t.splitOn slash).tail := by
  constructor
  · rintro ⟨x, y, h⟩
    have hs := congrArg (List.splitOn slash) h
    rw [List.append_assoc, List.cons_append, List.append_assoc, List.singleton_append,
      List.splitOn_append_cons_self, List.splitOn_append_cons_self_of_not_mem hp,
      List.splitOn_append_cons_self, List.splitOn_nil] at hs
    have hd := congrArg List.dropLast hs
    rw [List.dropLast_concat, List.dropLast_append_cons,
      List.dropLast_cons_of_ne_nil (List.splitOn_ne_nil _ _)] at hd
    obtain ⟨a, l, ha⟩ := List.exists_cons_of_ne_nil (List.splitOn_ne_nil slash x)
    rw [← hd, ha]
    exact List.mem_append_right l List.mem_cons_self
  · intro h
    induction hn : t.length using Nat.strong_induction_on generalizing t with
    | _ n ih =>
      by_cases hs : slash ∈ t
      · obtain ⟨a, b, rfl, hb⟩ := exists_last hs
        obtain ⟨c, l, hc⟩ := List.exists_cons_of_ne_nil (List.splitOn_ne_nil slash a)
        rw [List.splitOn_append_cons_self, List.splitOn_eq_singleton hb, hc] at h
        rcases List.mem_append.1 h with h | h
        · have hlt : a.length < n := by
            rw [← hn, List.length_append, List.length_cons]
            omega
          obtain ⟨x, y, hxy⟩ := ih a.length hlt (by rw [hc]; exact h) rfl
          refine ⟨x, y ++ (b ++ [slash]), ?_⟩
          rw [← List.append_assoc, hxy]
          simp
        · rw [List.mem_singleton.1 h]
          exact ⟨a, [], by simp⟩
      · rw [List.splitOn_eq_singleton hs] at h
        cases h

/-- The path `q` is `p`, or something below it. -/
def AtOrBelow (p q : Text) : Prop := q = p ∨ p ++ [slash] <+: q

variable {d name : Text}

theorem AtOrBelow.refl (p : Text) : AtOrBelow p p := .inl rfl

theorem atOrBelow_append (d name : Text) : AtOrBelow d (d ++ slash :: name) :=
  .inr ⟨name, by rw [List.append_assoc]; rfl⟩

/-- What is at or above an entry of a directory is the entry, or at or above the directory. -/
theorem atOrBelow_child (hn : slash ∉ name) :
    AtOrBelow p (d ++ slash :: name) ↔ p = d ++ slash :: name ∨ AtOrBelow p d := by
  have hd : d ++ slash :: name = d ++ [slash] ++ name := by rw [List.append_assoc]; rfl
  constructor
  · rintro (h | h)
    · exact .inl h.symm
    · rw [hd] at h
      rcases List.prefix_or_prefix_of_prefix h (List.prefix_append _ name) with h | ⟨u, hu⟩
      · rcases List.prefix_concat_iff.1 h with h | h
        · exact .inr (.inl (List.append_cancel_right h).symm)
        · exact .inr (.inr h)
      · rw [← hu, List.prefix_append_right_inj] at h
        rcases List.eq_nil_or_concat u with rfl | ⟨v, c, rfl⟩
        · rw [List.append_nil] at hu
          exact .inr (.inl (List.append_cancel_right hu))
        · rw [List.concat_eq_append, ← List.append_assoc] at hu
          obtain ⟨_, hc⟩ := List.append_inj' hu rfl
          cases hc
          exact absurd (h.subset (by simp)) hn
  · rintro (rfl | rfl | h)
    · exact .refl _
    · exact atOrBelow_append _ _
    · exact .inr (h.trans (List.prefix_append _ _))

end Library
