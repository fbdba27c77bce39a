import GoalRouter.Library.PrefixCode
import GoalRouter.Reporting

namespace GoalRouter
open Library
set_option autoImplicit true

/-- The number that a hexadecimal digit stands for. -/
def hexValue (c : CodePoint) : Nat := if c.val < 58 then c.val - 48 else c.val - 87

theorem hexValue_hexDigit (h : n < 16) : hexValue (hexDigit n) = n := by
  have hall : ∀ i : Fin 16, hexValue (hexDigit i) = i := by decide
  exact hall ⟨n, h⟩

def hexNumber (t : Text) : Nat := t.foldl (fun n c => 16 * n + hexValue c) 0

theorem hexNumber_hexDigits (width n : Nat) : hexNumber (hexDigits width n) = n % 16 ^ width := by
  induction width generalizing n with
  | zero =>
    rw [pow_zero, Nat.mod_one]
    rfl
  | succ width ih =>
    have hdigit := hexValue_hexDigit (Nat.mod_lt n (Nat.zero_lt_succ 15))
    have hsplit : hexNumber (hexDigits (width + 1) n) =
        16 * hexNumber (hexDigits width (n / 16)) + hexValue (hexDigit (n % 16)) := by
      rw [hexDigits]
      exact List.foldl_append ..
    rw [hsplit, ih, hdigit, pow_succ', Nat.mod_mul]
    omega

theorem length_hexDigits (width n : Nat) : (hexDigits width n).length = width := by
  induction width generalizing n with
  | zero => rfl
  | succ width ih => rw [hexDigits, List.length_append, ih, List.length_singleton]

/-- Neither a control character of ASCII nor a surrogate. -/
def IsVisible (c : CodePoint) : Prop :=
  0x20 ≤ c.val ∧ c.val ≠ 0x7F ∧ ¬(0xD800 ≤ c.val ∧ c.val ≤ 0xDFFF)

instance (c : CodePoint) : Decidable (IsVisible c) :=
  inferInstanceAs (Decidable (_ ∧ _ ∧ ¬(_ ∧ _)))

theorem hexDigits_visible (hc : c ∈ hexDigits width n) : IsVisible c := by
  have hall : ∀ i : Fin 16, IsVisible (hexDigit i) := by decide
  induction width generalizing n with
  | zero => cases hc
  | succ width ih =>
    rw [hexDigits, List.mem_append, List.mem_singleton] at hc
    rcases hc with hc | rfl
    · exact ih hc
    · exact hall ⟨n % 16, Nat.mod_lt n (Nat.zero_lt_succ 15)⟩

/-- The character that one character or one escape stands for. -/
def displayedCharacter : Text → Nat
  | [c] => c.val
  | _ :: kind :: digits =>
    if kind = 0x78 then
      if 0x80 ≤ hexNumber digits then 0xDC00 + hexNumber digits else hexNumber digits
    else if kind = 0x75 then hexNumber digits
    else if kind = 0x6E then 0x0A
    else if kind = 0x72 then 0x0D
    else if kind = 0x74 then 0x09
    else 0x5C
  | [] => 0

/-- How long the character or escape is that a text begins with. -/
def displayedLength : Text → Nat
  | c :: kind :: _ =>
    if c ≠ 0x5C then 1 else if kind = 0x78 then 4 else if kind = 0x75 then 6 else 2
  | _ => 1

/-- How a character is displayed. -/
inductive Displays (c : CodePoint) : Text → Prop
  | backslash (h : c.val = 0x5C) : Displays c [0x5C, 0x5C]
  | newline (h : c.val = 0x0A) : Displays c [0x5C, 0x6E]
  | carriageReturn (h : c.val = 0x0D) : Displays c [0x5C, 0x72]
  | tab (h : c.val = 0x09) : Displays c [0x5C, 0x74]
  | byte (h : 0xDC80 ≤ c.val ∧ c.val ≤ 0xDCFF) :
      Displays c (0x5C :: 0x78 :: hexDigits 2 (c.val - 0xDC00))
  | control (h : c.val < 0x20 ∨ c.val = 0x7F) : Displays c (0x5C :: 0x78 :: hexDigits 2 c.val)
  | surrogate (h : 0xD800 ≤ c.val ∧ c.val ≤ 0xDFFF) :
      Displays c (0x5C :: 0x75 :: hexDigits 4 c.val)
  | plain (h : c ≠ 0x5C) (hp : 0x20 ≤ c.val ∧ c.val ≠ 0x7F)
      (hs : ¬(0xD800 ≤ c.val ∧ c.val ≤ 0xDFFF)) : Displays c [c]

theorem displayCharacter_displays (c : CodePoint) : Displays c (displayCharacter c) := by
  rw [displayCharacter]
  split
  · rename_i h
    exact .backslash (congrArg Fin.val h)
  split
  · rename_i h
    exact .newline (congrArg Fin.val h)
  split
  · rename_i h
    exact .carriageReturn (congrArg Fin.val h)
  split
  · rename_i h
    exact .tab (congrArg Fin.val h)
  split
  · rename_i h
    exact .byte h
  split
  · rename_i h
    exact .control h
  split
  · rename_i h
    exact .surrogate h
  · rename_i hb _ _ _ _ hc hs
    rw [not_or] at hc
    exact .plain hb ⟨Nat.not_lt.1 hc.1, hc.2⟩ hs

namespace Displays

theorem read (h : Displays c t) : displayedCharacter t = c.val := by
  cases h with
  | backslash h | newline h | carriageReturn h | tab h => exact h.symm
  | byte h =>
    have hn := hexNumber_hexDigits 2 (c.val - 0xDC00)
    rw [displayedCharacter, if_pos rfl, hn, if_pos (by omega)]
    omega
  | control h =>
    have hn := hexNumber_hexDigits 2 c.val
    rw [displayedCharacter, if_pos rfl, hn, if_neg (by omega)]
    omega
  | surrogate h =>
    have hn := hexNumber_hexDigits 4 c.val
    rw [displayedCharacter, if_neg (by decide), if_pos rfl, hn]
    omega
  | plain => rfl

theorem size (h : Displays c t) (rest : Text) : displayedLength (t ++ rest) = t.length := by
  cases h with
  | plain h =>
    cases rest with
    | nil => rfl
    | cons d rest =>
      rw [List.singleton_append, displayedLength, if_pos h]
      rfl
  | byte | control | surrogate =>
    simp only [List.cons_append, List.length_cons, length_hexDigits]
    rfl
  | _ => rfl

theorem visible (h : Displays c t) (hd : d ∈ t) : IsVisible d := by
  have hescape {kind : CodePoint} {digits : Text} (hk : IsVisible kind)
      (hdigits : ∀ d ∈ digits, IsVisible d) : ∀ d ∈ 0x5C :: kind :: digits, IsVisible d := by
    intro d hd
    rcases List.mem_cons.1 hd with rfl | hd
    · decide
    rcases List.mem_cons.1 hd with rfl | hd
    · exact hk
    · exact hdigits d hd
  cases h with
  | plain h hp hs =>
    rw [List.mem_singleton.1 hd]
    exact ⟨hp.1, hp.2, hs⟩
  | byte | control | surrogate =>
    exact hescape (by decide) (fun _ hm => hexDigits_visible hm) d hd
  | _ => exact hescape (by decide) (fun _ hm => absurd hm List.not_mem_nil) d hd

end Displays

theorem displayCharacter_prefixCode : PrefixCode displayCharacter := by
  apply PrefixCode.of_size displayedLength
  · intro c d h
    apply Fin.ext
    rw [← (displayCharacter_displays c).read, h, (displayCharacter_displays d).read]
  · intro c h
    have hsize := (displayCharacter_displays c).size []
    rw [h] at hsize
    cases hsize
  · exact fun c rest => (displayCharacter_displays c).size rest

/-- Different texts are displayed differently, whatever they hold, and always on one line. -/
theorem displayText_faithful : Function.Injective displayText ∧
    ∀ value, ∀ c ∈ displayText value, IsVisible c := by
  refine ⟨displayCharacter_prefixCode.flatMap_injective, fun value c hc => ?_⟩
  obtain ⟨d, _, hd⟩ := List.mem_flatMap.1 hc
  exact (displayCharacter_displays d).visible hd

example : displayText [0x66, 0x0A, 0x5C, 0xDCFF, 0x7F, 0xD800] =
    text "f\\n\\\\\\xff\\x7f\\ud800" := by
  decide

end GoalRouter
