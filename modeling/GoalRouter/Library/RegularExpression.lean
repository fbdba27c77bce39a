import Mathlib.Computability.RegularExpressions

namespace Library
set_option autoImplicit true

section Forms

/-- `[...]`, with the characters listed. -/
def oneOf (l : List α) : RegularExpression α := l.foldr (fun a r => .char a + r) 0

/-- The characters one after the other. -/
def literally (l : List α) : RegularExpression α := l.foldr (fun a r => .char a * r) 1

/-- `r+` -/
def oneOrMore (r : RegularExpression α) : RegularExpression α := r * r.star

/-- `r?` -/
def optionally (r : RegularExpression α) : RegularExpression α := 1 + r

/-- `r{0,n}` -/
def upTo : Nat → RegularExpression α → RegularExpression α
  | 0, _ => 1
  | n + 1, r => optionally (r * upTo n r)

end Forms

section Matches

variable {α : Type} [DecidableEq α] {l : List α} {r q : RegularExpression α} {x : List α}

theorem oneOf_rmatch : (oneOf l).rmatch x = true ↔ ∃ a ∈ l, x = [a] := by
  induction l with
  | nil =>
    rw [oneOf, List.foldr_nil, RegularExpression.zero_rmatch]
    simp
  | cons a l ih =>
    rw [oneOf] at ih
    rw [oneOf, List.foldr_cons, RegularExpression.add_rmatch_iff, RegularExpression.char_rmatch_iff,
      ih]
    simp

theorem oneOf_mul_rmatch :
    (oneOf l * r).rmatch x = true ↔ ∃ a ∈ l, ∃ u, x = a :: u ∧ r.rmatch u = true := by
  rw [RegularExpression.mul_rmatch_iff]
  constructor
  · rintro ⟨_, u, rfl, ha, hu⟩
    obtain ⟨a, hmem, rfl⟩ := oneOf_rmatch.1 ha
    exact ⟨a, hmem, u, rfl, hu⟩
  · rintro ⟨a, ha, u, rfl, hu⟩
    exact ⟨[a], u, rfl, oneOf_rmatch.2 ⟨a, ha, rfl⟩, hu⟩

theorem star_oneOf_rmatch : (oneOf l).star.rmatch x = true ↔ ∀ a ∈ x, a ∈ l := by
  rw [RegularExpression.star_rmatch_iff]
  constructor
  · rintro ⟨S, rfl, hS⟩ a ha
    obtain ⟨t, ht, ha⟩ := List.mem_flatten.1 ha
    obtain ⟨b, hb, rfl⟩ := oneOf_rmatch.1 (hS t ht).2
    rwa [List.mem_singleton.1 ha]
  · intro h
    refine ⟨x.map fun a => [a], (List.flatMap_singleton' x).symm, fun t ht => ?_⟩
    obtain ⟨a, ha, rfl⟩ := List.mem_map.1 ht
    exact ⟨List.cons_ne_nil a [], oneOf_rmatch.2 ⟨a, h a ha, rfl⟩⟩

theorem oneOrMore_oneOf_rmatch :
    (oneOrMore (oneOf l)).rmatch x = true ↔ x ≠ [] ∧ ∀ a ∈ x, a ∈ l := by
  rw [oneOrMore, oneOf_mul_rmatch]
  constructor
  · rintro ⟨a, ha, u, rfl, hu⟩
    exact ⟨List.cons_ne_nil a u, List.forall_mem_cons.2 ⟨ha, star_oneOf_rmatch.1 hu⟩⟩
  · rintro ⟨hx, h⟩
    obtain ⟨a, u, rfl⟩ := List.exists_cons_of_ne_nil hx
    obtain ⟨ha, hu⟩ := List.forall_mem_cons.1 h
    exact ⟨a, ha, u, rfl, star_oneOf_rmatch.2 hu⟩

theorem pow_oneOf_rmatch (n : Nat) :
    (oneOf l ^ n).rmatch x = true ↔ x.length = n ∧ ∀ a ∈ x, a ∈ l := by
  induction n generalizing x with
  | zero =>
    have hone : (oneOf l ^ 0 : RegularExpression α) = 1 := rfl
    rw [hone, RegularExpression.one_rmatch_iff, List.length_eq_zero_iff]
    constructor
    · rintro rfl
      exact ⟨rfl, fun _ h => absurd h List.not_mem_nil⟩
    · exact And.left
  | succ n ih =>
    have hsucc : (oneOf l ^ (n + 1) : RegularExpression α) = oneOf l ^ n * oneOf l := rfl
    rw [hsucc, RegularExpression.mul_rmatch_iff]
    constructor
    · rintro ⟨t, _, rfl, ht, hu⟩
      obtain ⟨a, ha, rfl⟩ := oneOf_rmatch.1 hu
      obtain ⟨hn, ht⟩ := ih.1 ht
      rw [List.length_append, hn]
      refine ⟨rfl, fun b hb => ?_⟩
      rcases List.mem_append.1 hb with hb | hb
      · exact ht b hb
      · rwa [List.mem_singleton.1 hb]
    · rintro ⟨hn, h⟩
      have hx : x ≠ [] := by
        rintro rfl
        cases hn
      refine ⟨x.dropLast, [x.getLast hx], (List.dropLast_append_getLast hx).symm, ih.2 ⟨?_, ?_⟩, ?_⟩
      · rw [List.length_dropLast, hn]
        rfl
      · exact fun a ha => h a (List.mem_of_mem_dropLast ha)
      · exact oneOf_rmatch.2 ⟨_, h _ (List.getLast_mem hx), rfl⟩

theorem literally_rmatch : (literally l).rmatch x = true ↔ x = l := by
  induction l generalizing x with
  | nil => exact RegularExpression.one_rmatch_iff x
  | cons a l ih =>
    rw [literally] at ih
    rw [literally, List.foldr_cons, RegularExpression.mul_rmatch_iff]
    constructor
    · rintro ⟨t, u, rfl, ht, hu⟩
      rw [(RegularExpression.char_rmatch_iff a t).1 ht, ih.1 hu]
      rfl
    · rintro rfl
      exact ⟨[a], l, rfl, (RegularExpression.char_rmatch_iff a [a]).2 rfl, ih.2 rfl⟩

theorem literally_mul_rmatch :
    (literally l * r).rmatch x = true ↔ ∃ u, x = l ++ u ∧ r.rmatch u = true := by
  rw [RegularExpression.mul_rmatch_iff]
  constructor
  · rintro ⟨t, u, rfl, ht, hu⟩
    rw [literally_rmatch.1 ht]
    exact ⟨u, rfl, hu⟩
  · rintro ⟨u, hx, hu⟩
    exact ⟨l, u, hx, literally_rmatch.2 rfl, hu⟩

theorem optionally_rmatch : (optionally r).rmatch x = true ↔ x = [] ∨ r.rmatch x = true := by
  rw [optionally, RegularExpression.add_rmatch_iff, RegularExpression.one_rmatch_iff]

/-- Whatever matches begins with one of the characters. -/
def StartsIn (l : List α) (r : RegularExpression α) : Prop :=
  ∀ x, r.rmatch x = true → ∃ a ∈ l, ∃ u, x = a :: u

theorem startsIn_oneOf (l : List α) : StartsIn l (oneOf l) := by
  intro x hx
  obtain ⟨a, ha, rfl⟩ := oneOf_rmatch.1 hx
  exact ⟨a, ha, [], rfl⟩

theorem StartsIn.mul (h : StartsIn l r) : StartsIn l (r * q) := by
  intro x hx
  obtain ⟨t, u, rfl, ht, _⟩ := (RegularExpression.mul_rmatch_iff _ _ _).1 hx
  obtain ⟨a, ha, v, rfl⟩ := h t ht
  exact ⟨a, ha, v ++ u, rfl⟩

theorem StartsIn.add (h : StartsIn l r) (hq : StartsIn l q) : StartsIn l (r + q) := by
  intro x hx
  rcases (RegularExpression.add_rmatch_iff _ _ _).1 hx with hx | hx
  · exact h x hx
  · exact hq x hx

end Matches

end Library
