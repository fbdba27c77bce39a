import GoalRouter.Library.ShellPattern
import Mathlib.Data.List.Infix

namespace Library
set_option autoImplicit true

abbrev asterisk : CodePoint := 0x2A

section Patterns

variable {t : Text} {c : CodePoint}

theorem itemsMatch_anyMany (items : List PatternItem) (t : Text) :
    itemsMatch (.anyMany :: items) t = true ↔ ∃ before after, t = before ++ after ∧
      itemsMatch items after = true := by
  have hany : itemsMatch (.anyMany :: items) t = t.tails.any (itemsMatch items) := rfl
  rw [hany, List.any_eq_true]
  constructor
  · rintro ⟨after, hm, h⟩
    obtain ⟨before, rfl⟩ := (List.mem_tails _ _).1 hm
    exact ⟨before, after, rfl, h⟩
  · rintro ⟨before, after, rfl, h⟩
    exact ⟨after, (List.mem_tails _ _).2 ⟨before, rfl⟩, h⟩

theorem itemsMatch_exactly_cons (c : CodePoint) (items : List PatternItem) (t : Text) :
    itemsMatch (.exactly c :: items) t = true ↔
      ∃ rest, t = c :: rest ∧ itemsMatch items rest = true := by
  cases t with
  | nil => exact iff_of_false Bool.false_ne_true nofun
  | cons d t =>
    have hcons : itemsMatch (.exactly c :: items) (d :: t) =
        (decide (c = d) && itemsMatch items t) := rfl
    rw [hcons, Bool.and_eq_true, decide_eq_true_eq]
    constructor
    · rintro ⟨rfl, h⟩
      exact ⟨t, rfl, h⟩
    · rintro ⟨rest, hrest, h⟩
      cases hrest
      exact ⟨rfl, h⟩

theorem itemsMatch_rest (t : Text) : itemsMatch [.anyMany] t = true :=
  (itemsMatch_anyMany [] t).2 ⟨t, [], (List.append_nil t).symm, rfl⟩

theorem itemsMatch_ending :
    itemsMatch [.anyMany, .exactly c] t = true ↔ ∃ before, t = before ++ [c] := by
  rw [itemsMatch_anyMany]
  constructor
  · rintro ⟨before, after, rfl, h⟩
    exact ⟨before, congrArg (before ++ ·) ((itemsMatch_exactly [c] after).1 h)⟩
  · rintro ⟨before, rfl⟩
    exact ⟨before, [c], rfl, (itemsMatch_exactly [c] [c]).2 rfl⟩

/-- `*c` -/
theorem patternMatches_ending (hc : isOrdinary c = true) :
    patternMatches [asterisk, c] t = true ↔ ∃ before, t = before ++ [c] := by
  have hp : parsePattern [asterisk, c] = [.anyMany, .exactly c] :=
    congrArg (_ :: ·) (parseItems_cons hc 0 [])
  rw [patternMatches, hp, itemsMatch_ending]

/-- `*c*` -/
theorem patternMatches_containing (hc : isOrdinary c = true) :
    patternMatches [asterisk, c, asterisk] t = true ↔ c ∈ t := by
  have hp : parsePattern [asterisk, c, asterisk] = [.anyMany, .exactly c, .anyMany] :=
    congrArg (_ :: ·) (parseItems_cons hc 1 [asterisk])
  rw [patternMatches, hp, itemsMatch_anyMany]
  constructor
  · rintro ⟨before, after, rfl, h⟩
    obtain ⟨rest, rfl, _⟩ := (itemsMatch_exactly_cons c _ after).1 h
    exact List.mem_append_right before List.mem_cons_self
  · intro h
    obtain ⟨before, after, rfl⟩ := List.append_of_mem h
    exact ⟨before, c :: after, rfl,
      (itemsMatch_exactly_cons c _ _).2 ⟨after, rfl, itemsMatch_rest after⟩⟩

/-- `*[...]*` -/
theorem patternMatches_some {pattern : Text} {negated : Bool} {members : List BracketMember}
    (hp : parsePattern pattern = [.anyMany, .bracket negated members, .anyMany]) :
    patternMatches pattern t = true ↔
      ∃ c ∈ t, (PatternItem.bracket negated members).admits c = true := by
  have hcons (c : CodePoint) (rest : Text) :
      itemsMatch [.bracket negated members, .anyMany] (c :: rest) =
        (PatternItem.admits (.bracket negated members) c && itemsMatch [.anyMany] rest) := rfl
  rw [patternMatches, hp, itemsMatch_anyMany]
  constructor
  · rintro ⟨before, after, rfl, h⟩
    cases after with
    | nil => cases h
    | cons c rest =>
      rw [hcons, Bool.and_eq_true] at h
      exact ⟨c, List.mem_append_right before List.mem_cons_self, h.1⟩
  · rintro ⟨c, hm, hc⟩
    obtain ⟨before, after, rfl⟩ := List.append_of_mem hm
    refine ⟨before, c :: after, rfl, ?_⟩
    rw [hcons, hc, itemsMatch_rest]
    rfl

/-- `p*`, with ordinary characters `p` -/
theorem patternMatches_beginning {p : Text} (hp : ∀ c ∈ p, isOrdinary c = true) :
    patternMatches (p ++ [asterisk]) t = true ↔ p <+: t := by
  have hparse : parsePattern (p ++ [asterisk]) = p.map .exactly ++ [.anyMany] := by
    rw [parsePattern, List.length_append]
    induction p with
    | nil => rfl
    | cons c p ih =>
      obtain ⟨hc, hp⟩ := List.forall_mem_cons.1 hp
      rw [List.length_cons, Nat.add_right_comm, List.cons_append, parseItems_cons hc, ih hp]
      rfl
  rw [patternMatches, hparse]
  clear hparse hp
  induction p generalizing t with
  | nil => exact iff_of_true (itemsMatch_rest t) List.nil_prefix
  | cons c p ih =>
    rw [List.map_cons, List.cons_append, itemsMatch_exactly_cons]
    constructor
    · rintro ⟨rest, rfl, h⟩
      exact (List.prefix_cons_inj c).2 (ih.1 h)
    · rintro ⟨rest, rfl⟩
      exact ⟨p ++ rest, rfl, ih.2 (List.prefix_append p rest)⟩

end Patterns

section Expansions

/-- The least of the lengths up to `n` that satisfies `p`. -/
def firstLength (p : Nat → Bool) (n : Nat) : Option Nat := (List.range (n + 1)).find? p

/-- The greatest of them. -/
def lastLength (p : Nat → Bool) (n : Nat) : Option Nat := (List.range (n + 1)).reverse.find? p

/-- `${value#pattern}` -/
def removeSmallestPrefix (pattern value : Text) : Text :=
  match firstLength (fun n => patternMatches pattern (value.take n)) value.length with
  | some n => value.drop n
  | none => value

/-- `${value##pattern}` -/
def removeLargestPrefix (pattern value : Text) : Text :=
  match lastLength (fun n => patternMatches pattern (value.take n)) value.length with
  | some n => value.drop n
  | none => value

/-- `${value%pattern}` -/
def removeSmallestSuffix (pattern value : Text) : Text :=
  match lastLength (fun n => patternMatches pattern (value.drop n)) value.length with
  | some n => value.take n
  | none => value

/-- `${value%%pattern}` -/
def removeLargestSuffix (pattern value : Text) : Text :=
  match firstLength (fun n => patternMatches pattern (value.drop n)) value.length with
  | some n => value.take n
  | none => value

variable {p : Nat → Bool} {k n : Nat}

theorem firstLength_eq_some (hk : k ≤ n) (hp : p k = true) (hb : ∀ j < k, p j = false) :
    firstLength p n = some k := by
  rw [firstLength, List.find?_range_eq_some]
  refine ⟨hp, List.mem_range.2 (by omega), fun j hj => ?_⟩
  rw [hb j hj]
  rfl

theorem lastLength_eq_some (hk : k ≤ n) (hp : p k = true) (hb : ∀ j, k < j → j ≤ n → p j = false) :
    lastLength p n = some k := by
  induction n with
  | zero =>
    obtain rfl := Nat.le_zero.1 hk
    simp [lastLength, hp]
  | succ n ih =>
    rw [lastLength, List.range_succ, List.reverse_append, List.reverse_singleton,
      List.singleton_append, List.find?_cons]
    by_cases he : k = n + 1
    · rw [← he, hp]
    · rw [hb (n + 1) (by omega) (Nat.le_refl _)]
      exact ih (by omega) fun j hj hn => hb j hj (by omega)

theorem lastLength_eq_none (h : ∀ j ≤ n, p j = false) : lastLength p n = none := by
  rw [lastLength, List.find?_eq_none]
  intro j hj
  rw [h j (Nat.le_of_lt_succ (List.mem_range.1 (List.mem_reverse.1 hj)))]
  exact Bool.false_ne_true

variable {a b t : Text} {c : CodePoint}

theorem take_not_ending (hc : isOrdinary c = true) (h : c ∉ t) (j : Nat) :
    patternMatches [asterisk, c] (t.take j) = false := by
  rw [Bool.eq_false_iff]
  intro hm
  obtain ⟨before, hb⟩ := (patternMatches_ending hc).1 hm
  exact h (List.mem_of_mem_take (hb ▸ List.mem_append_right before (List.mem_singleton_self c)))

theorem patternMatches_beginning_one (hc : isOrdinary c = true) :
    patternMatches [c, asterisk] t = true ↔ ∃ rest, t = c :: rest := by
  have h := @patternMatches_beginning t [c] fun d hd => (List.mem_singleton.1 hd) ▸ hc
  rw [List.singleton_append] at h
  rw [h]
  constructor
  · rintro ⟨rest, rfl⟩
    exact ⟨rest, rfl⟩
  · rintro ⟨rest, rfl⟩
    exact ⟨rest, rfl⟩

theorem drop_not_beginning (hc : isOrdinary c = true) (h : c ∉ t) (j : Nat) :
    patternMatches [c, asterisk] (t.drop j) = false := by
  rw [Bool.eq_false_iff]
  intro hm
  obtain ⟨rest, hr⟩ := (patternMatches_beginning_one hc).1 hm
  exact h (List.mem_of_mem_drop (hr ▸ List.mem_cons_self))

/-- `${value##*c}` of a text without `c` -/
theorem removeLargestPrefix_absent (hc : isOrdinary c = true) (h : c ∉ t) :
    removeLargestPrefix [asterisk, c] t = t := by
  rw [removeLargestPrefix, lastLength_eq_none fun j _ => take_not_ending hc h j]

/-- `${value##*c}` -/
theorem removeLargestPrefix_last (hc : isOrdinary c = true) (hb : c ∉ b) :
    removeLargestPrefix [asterisk, c] (a ++ c :: b) = b := by
  have hk : lastLength (fun n => patternMatches [asterisk, c] ((a ++ c :: b).take n))
      (a ++ c :: b).length = some (a.length + 1) := by
    apply lastLength_eq_some
    · rw [List.length_append, List.length_cons]
      omega
    · rw [List.take_length_add_append]
      exact (patternMatches_ending hc).2 ⟨a, rfl⟩
    · intro j hj hlength
      obtain ⟨i, rfl⟩ := Nat.exists_eq_add_of_lt hj
      have hi : a.length + 1 + i + 1 = a.length + (i + 1 + 1) := by omega
      rw [hi, List.take_length_add_append, List.take_succ_cons, Bool.eq_false_iff]
      intro hm
      obtain ⟨before, hbefore⟩ := (patternMatches_ending hc).1 hm
      have hne : b.take (i + 1) ≠ [] := by
        rw [List.length_append, List.length_cons] at hlength
        apply List.ne_nil_of_length_pos
        rw [List.length_take]
        omega
      have hlast := congrArg List.getLast? hbefore
      rw [List.getLast?_concat, List.getLast?_append_of_ne_nil _ (List.cons_ne_nil _ _),
        List.getLast?_cons_of_ne_nil hne] at hlast
      exact hb (List.mem_of_mem_take (List.mem_of_getLast? hlast))
  rw [removeLargestPrefix, hk]
  exact List.drop_length_add_append 1

/-- `${value#*c}` -/
theorem removeSmallestPrefix_first (hc : isOrdinary c = true) (ha : c ∉ a) :
    removeSmallestPrefix [asterisk, c] (a ++ c :: b) = b := by
  have hk : firstLength (fun n => patternMatches [asterisk, c] ((a ++ c :: b).take n))
      (a ++ c :: b).length = some (a.length + 1) := by
    apply firstLength_eq_some
    · rw [List.length_append, List.length_cons]
      omega
    · rw [List.take_length_add_append]
      exact (patternMatches_ending hc).2 ⟨a, rfl⟩
    · intro j hj
      rw [List.take_append_of_le_length (Nat.le_of_lt_succ hj)]
      exact take_not_ending hc ha j
  rw [removeSmallestPrefix, hk]
  exact List.drop_length_add_append 1

/-- `${value%c*}` -/
theorem removeSmallestSuffix_last (hc : isOrdinary c = true) (hb : c ∉ b) :
    removeSmallestSuffix [c, asterisk] (a ++ c :: b) = a := by
  have hk : lastLength (fun n => patternMatches [c, asterisk] ((a ++ c :: b).drop n))
      (a ++ c :: b).length = some a.length := by
    apply lastLength_eq_some
    · rw [List.length_append]
      exact Nat.le_add_right ..
    · rw [List.drop_left]
      exact (patternMatches_beginning_one hc).2 ⟨b, rfl⟩
    · intro j hj _
      obtain ⟨i, rfl⟩ := Nat.exists_eq_add_of_lt hj
      rw [Nat.add_assoc, List.drop_length_add_append]
      exact drop_not_beginning hc hb i
  rw [removeSmallestSuffix, hk]
  exact List.take_left

/-- `${value%%c*}` -/
theorem removeLargestSuffix_first (hc : isOrdinary c = true) (ha : c ∉ a) :
    removeLargestSuffix [c, asterisk] (a ++ c :: b) = a := by
  have hk : firstLength (fun n => patternMatches [c, asterisk] ((a ++ c :: b).drop n))
      (a ++ c :: b).length = some a.length := by
    apply firstLength_eq_some
    · rw [List.length_append]
      exact Nat.le_add_right ..
    · rw [List.drop_left]
      exact (patternMatches_beginning_one hc).2 ⟨b, rfl⟩
    · intro j hj
      rw [List.drop_append_of_le_length (Nat.le_of_lt hj), Bool.eq_false_iff]
      intro hm
      obtain ⟨rest, hr⟩ := (patternMatches_beginning_one hc).1 hm
      obtain ⟨d, u, hd⟩ := List.exists_cons_of_ne_nil
        (List.ne_nil_of_length_pos (l := a.drop j) (by rw [List.length_drop]; omega))
      rw [hd] at hr
      cases hr
      exact ha (List.mem_of_mem_drop (hd ▸ List.mem_cons_self))
  rw [removeLargestSuffix, hk]
  exact List.take_left

/-- `${value#p}`, with ordinary characters `p` -/
theorem removeSmallestPrefix_ordinary {p : Text} (hp : ∀ c ∈ p, isOrdinary c = true) (t : Text) :
    removeSmallestPrefix p (p ++ t) = t := by
  have hk : firstLength (fun n => patternMatches p ((p ++ t).take n)) (p ++ t).length =
      some p.length := by
    apply firstLength_eq_some
    · rw [List.length_append]
      exact Nat.le_add_right ..
    · rw [List.take_left]
      exact (patternMatches_ordinary hp p).2 rfl
    · intro j hj
      rw [Bool.eq_false_iff]
      intro hm
      have hlength := congrArg List.length ((patternMatches_ordinary hp _).1 hm)
      rw [List.length_take] at hlength
      omega
  rw [removeSmallestPrefix, hk]
  exact List.drop_left

example : removeLargestPrefix (text "*/") (text "a/b/c:1") = text "c:1" := by decide +kernel
example : removeSmallestSuffix (text ":*") (text "a:1/c:1") = text "a:1/c" := by decide +kernel

end Expansions

end Library
