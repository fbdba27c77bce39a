import GoalRouter.Library.Text
import Mathlib.Algebra.Group.Nat.Defs
import Mathlib.Data.List.DropRight

namespace Library
set_option autoImplicit true

/-- The zeros of Unicode's decimal digits, each followed by the other nine. -/
def decimalZeros : List Nat :=
  [0x30, 0x660, 0x6F0, 0x7C0, 0x966, 0x9E6, 0xA66, 0xAE6, 0xB66, 0xBE6, 0xC66, 0xCE6, 0xD66,
    0xDE6, 0xE50, 0xED0, 0xF20, 0x1040, 0x1090, 0x17E0, 0x1810, 0x1946, 0x19D0, 0x1A80, 0x1A90,
    0x1B50, 0x1BB0, 0x1C40, 0x1C50, 0xA620, 0xA8D0, 0xA900, 0xA9D0, 0xA9F0, 0xAA50, 0xABF0,
    0xFF10, 0x104A0, 0x10D30, 0x10D40, 0x11066, 0x110F0, 0x11136, 0x111D0, 0x112F0, 0x11450,
    0x114D0, 0x11650, 0x116C0, 0x116D0, 0x116DA, 0x11730, 0x118E0, 0x11950, 0x11BF0, 0x11C50,
    0x11D50, 0x11DA0, 0x11F50, 0x16130, 0x16A60, 0x16AC0, 0x16B50, 0x16D70, 0x1CCF0, 0x1D7CE,
    0x1D7D8, 0x1D7E2, 0x1D7EC, 0x1D7F6, 0x1E140, 0x1E2F0, 0x1E4F0, 0x1E5F1, 0x1E950, 0x1FBF0]

def decimalValue (c : CodePoint) : Option Nat :=
  (decimalZeros.find? fun first => first ≤ c.val && c.val < first + 10).map (c.val - ·)

/-- The characters around a number that `int` skips. -/
def isIntegerSpace (c : CodePoint) : Bool := isSpace c && !(28 ≤ c.val && c.val ≤ 31)

abbrev underscore : CodePoint := 0x5F

/-- Digits, where single underscores may stand between them. -/
def integerDigits (t : Text) : Option (List Nat) :=
  let groups := t.splitOn underscore
  if groups.any (· = []) then none else groups.flatten.mapM decimalValue

/-- The digits that `int` reads at most. -/
def maxIntegerDigits : Nat := 4300

/-- `int(t)`, `none` where it raises `ValueError`. -/
def parseInteger (t : Text) : Option Int := do
  let t := (t.dropWhile isIntegerSpace).rdropWhile isIntegerSpace
  let isNegative := t.head? = some 0x2D
  let digits ← integerDigits (if isNegative ∨ t.head? = some 0x2B then t.tail else t)
  if digits.length > maxIntegerDigits then none
  let n : Nat := digits.foldl (fun n digit => n * 10 + digit) 0
  return if isNegative then -n else n

example : parseInteger (text " -1_0\n") = some (-10) := by decide +kernel
example : parseInteger (text "1__0") = none := by decide +kernel

section Digits

/-- The characters that `str` writes a number with. -/
def isAsciiDigit (c : CodePoint) : Bool := 48 ≤ c.val && c.val ≤ 57

theorem isAsciiDigit_iff : isAsciiDigit c = true ↔ 48 ≤ c.val ∧ c.val ≤ 57 := by
  simp [isAsciiDigit]

theorem decimalValue_digit (h : isAsciiDigit c = true) : decimalValue c = some (c.val - 48) := by
  have hc := isAsciiDigit_iff.1 h
  have hfind : decimalZeros.find? (fun first => first ≤ c.val && c.val < first + 10) = some 48 := by
    rw [decimalZeros, List.find?_cons_of_pos]
    simp only [Bool.and_eq_true, decide_eq_true_eq]
    omega
  rw [decimalValue, hfind, Option.map_some]

theorem isIntegerSpace_digit (h : isAsciiDigit c = true) : isIntegerSpace c = false := by
  have hc := isAsciiDigit_iff.1 h
  rw [Bool.eq_false_iff]
  intro hs
  simp only [isIntegerSpace, isSpace, Bool.and_eq_true, Bool.or_eq_true, decide_eq_true_eq,
    beq_iff_eq] at hs
  omega

variable {t : Text}

theorem mapM_decimalValue (h : ∀ c ∈ t, isAsciiDigit c = true) :
    t.mapM decimalValue = some (t.map (·.val - 48)) := by
  induction t with
  | nil => rfl
  | cons c t ih =>
    rw [List.mapM_cons, decimalValue_digit (h c List.mem_cons_self),
      ih fun d hd => h d (List.mem_cons_of_mem _ hd)]
    rfl

theorem integerDigits_digits (hn : t ≠ []) (h : ∀ c ∈ t, isAsciiDigit c = true) :
    integerDigits t = some (t.map (·.val - 48)) := by
  have hu : underscore ∉ t := fun hm => absurd (h _ hm) (by decide)
  simp only [integerDigits, List.splitOn_eq_singleton hu, List.any_cons, List.any_nil, hn,
    decide_false, Bool.or_self, Bool.false_eq_true, if_false, List.flatten_singleton]
  exact mapM_decimalValue h

theorem parseInteger_digits (hn : t ≠ []) (h : ∀ c ∈ t, isAsciiDigit c = true)
    (hl : t.length ≤ maxIntegerDigits) :
    parseInteger t = some ((t.map (·.val - 48)).foldl (fun n digit => n * 10 + digit) 0 : Nat) := by
  have hdrop : t.dropWhile isIntegerSpace = t := by
    obtain ⟨c, rest, rfl⟩ := List.exists_cons_of_ne_nil hn
    have hc := isIntegerSpace_digit (h c List.mem_cons_self)
    rw [List.dropWhile_cons_of_neg (by rw [hc]; exact Bool.false_ne_true)]
  have hrdrop : t.rdropWhile isIntegerSpace = t := by
    have hc := isIntegerSpace_digit (h _ (List.getLast_mem hn))
    rw [← List.dropLast_append_getLast hn,
      List.rdropWhile_concat_neg _ _ _ (by rw [hc]; exact Bool.false_ne_true)]
  have hminus : t.head? ≠ some 0x2D := by
    intro he
    exact absurd (h _ (List.mem_of_head? he)) (by decide)
  have hplus : t.head? ≠ some 0x2B := by
    intro he
    exact absurd (h _ (List.mem_of_head? he)) (by decide)
  simp only [parseInteger, hdrop, hrdrop, hminus, hplus, or_self, if_false,
    integerDigits_digits hn h]
  have hle : ¬(t.map (·.val - 48)).length > maxIntegerDigits := by
    rw [List.length_map]
    omega
  rw [Option.bind_eq_bind, Option.bind_some, if_neg hle]
  rfl

end Digits

theorem text_repr (n : Nat) :
    text (toString n) = (Nat.toDigits 10 n).map fun c => Fin.ofNat 0x110000 c.toNat := by
  rw [text, Nat.toString_eq_repr, Nat.toList_repr]

theorem parseInteger_repr {n : Nat} (h : n < 10 ^ maxIntegerDigits) :
    parseInteger (text (toString n)) = some (n : Int) := by
  rw [text_repr]
  have hdigit : ∀ d ∈ Nat.toDigits 10 n, 48 ≤ d.toNat ∧ d.toNat ≤ 57 := by
    intro d hd
    exact Char.isDigit_iff_toNat.1 (Nat.isDigit_of_mem_toDigits (by decide) (by decide) hd)
  have hval : ∀ d ∈ Nat.toDigits 10 n, (Fin.ofNat 0x110000 d.toNat).val = d.toNat := by
    intro d hd
    have := hdigit d hd
    exact Nat.mod_eq_of_lt (by omega)
  rw [parseInteger_digits]
  · have hread : ((Nat.toDigits 10 n).map fun d => Fin.ofNat 0x110000 d.toNat).map
        (fun c => c.val - 48) = (Nat.toDigits 10 n).map fun d => d.toNat - 48 := by
      rw [List.map_map]
      apply List.map_congr_left
      intro d hd
      rw [Function.comp_apply, hval d hd]
    have hfold := Nat.ofDigitChars_ten_toDigits (n := n)
    rw [Nat.ofDigitChars_eq_foldl] at hfold
    rw [hread, List.foldl_map]
    simp only [Nat.mul_comm _ 10]
    exact congrArg _ (congrArg _ hfold)
  · simp
  · intro c hc
    obtain ⟨d, hd, rfl⟩ := List.mem_map.1 hc
    rw [isAsciiDigit_iff, hval d hd]
    exact hdigit d hd
  · rw [List.length_map, Nat.length_toDigits_le_iff (by decide) (by decide)]
    exact h

end Library
