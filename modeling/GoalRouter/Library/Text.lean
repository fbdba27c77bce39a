import Mathlib.Data.List.Lex
import Mathlib.Order.Fin.Basic

namespace Library
set_option autoImplicit true

/-- A code point of a Python string, which may also be a lone surrogate. -/
abbrev CodePoint := Fin 0x110000

/-- A Python string. -/
abbrev Text := List CodePoint

instance neZero_codePoints : @NeZero Nat Zero.ofOfNat0 0x110000 := ⟨by decide⟩

instance : LawfulBEq CodePoint := inferInstance

instance : LawfulBEq Text := inferInstance

def text (s : String) : Text := s.toList.map fun c => Fin.ofNat 0x110000 c.toNat

def isHighSurrogate (c : CodePoint) : Bool := 0xD800 ≤ c.val && c.val ≤ 0xDBFF

def isLowSurrogate (c : CodePoint) : Bool := 0xDC00 ≤ c.val && c.val ≤ 0xDFFF

/-- The code point a surrogate pair stands for. -/
def surrogatePair (h l : CodePoint) : CodePoint :=
  Fin.ofNat 0x110000 (0x10000 + (h.val - 0xD800) * 0x400 + (l.val - 0xDC00))

/-- What `json.loads` makes of the escapes `json.dumps` wrote: a high surrogate followed by a
low one comes back as one code point. -/
def joinSurrogates : Text → Text
  | [] => []
  | [c] => [c]
  | h :: l :: rest =>
    if isHighSurrogate h && isLowSurrogate l then surrogatePair h l :: joinSurrogates rest
    else h :: joinSurrogates (l :: rest)

theorem surrogatePair_val (hh : isHighSurrogate h = true) (hl : isLowSurrogate l = true) :
    0x10000 ≤ (surrogatePair h l).val := by
  simp only [isHighSurrogate, isLowSurrogate, Bool.and_eq_true, decide_eq_true_eq] at hh hl
  simp only [surrogatePair, Fin.ofNat]
  rw [Nat.mod_eq_of_lt (by omega)]
  omega

/-- No high surrogate stands right before a low one. -/
def Joined (t : Text) : Prop :=
  t.IsChain fun h l => (isHighSurrogate h && isLowSurrogate l) = false

theorem not_low_of_le (h : 0x10000 ≤ c.val) : isLowSurrogate c = false := by
  have hc : ¬c.val ≤ 0xDFFF := by omega
  simp [isLowSurrogate, hc]

theorem not_high_of_le (h : 0x10000 ≤ c.val) : isHighSurrogate c = false := by
  have hc : ¬c.val ≤ 0xDBFF := by omega
  simp [isHighSurrogate, hc]

theorem joinSurrogates_head (c : CodePoint) (t : Text) :
    ∃ d u, joinSurrogates (c :: t) = d :: u ∧ (isLowSurrogate d = true → d = c) := by
  cases t with
  | nil => exact ⟨c, [], rfl, fun _ => rfl⟩
  | cons l rest =>
    simp only [joinSurrogates]
    split
    · rename_i hp
      obtain ⟨hh, hl⟩ := Bool.and_eq_true_iff.1 hp
      refine ⟨_, _, rfl, fun hd => ?_⟩
      rw [not_low_of_le (surrogatePair_val hh hl)] at hd
      cases hd
    · exact ⟨c, _, rfl, fun _ => rfl⟩

theorem joined_joinSurrogates (t : Text) : Joined (joinSurrogates t) := by
  induction t using joinSurrogates.induct with
  | case1 => exact .nil
  | case2 c => exact .singleton c
  | case3 h l rest hp ih =>
    simp only [joinSurrogates, hp, ↓reduceIte]
    obtain ⟨hh, hl⟩ := Bool.and_eq_true_iff.1 hp
    have hv := surrogatePair_val hh hl
    cases hj : joinSurrogates rest with
    | nil => exact .singleton _
    | cons d u =>
      rw [hj] at ih
      exact List.isChain_cons_cons.2 ⟨by simp [not_high_of_le hv], ih⟩
  | case4 h l rest hp ih =>
    rw [joinSurrogates, if_neg hp]
    obtain ⟨d, u, hj, hd⟩ := joinSurrogates_head l rest
    rw [hj] at ih ⊢
    refine List.isChain_cons_cons.2 ⟨?_, ih⟩
    by_contra hc
    obtain ⟨hh, hl⟩ := Bool.and_eq_true_iff.1 (Bool.eq_true_of_not_eq_false hc)
    rw [hd hl] at hl
    exact hp (by simp [hh, hl])

theorem Joined.joinSurrogates (h : Joined t) : joinSurrogates t = t := by
  induction t using joinSurrogates.induct with
  | case1 => rfl
  | case2 c => rfl
  | case3 h' l rest hp ih =>
    rw [(List.isChain_cons_cons.1 h).1] at hp
    cases hp
  | case4 h' l rest hp ih =>
    rw [Library.joinSurrogates, if_neg hp, ih (List.isChain_cons_cons.1 h).2]

@[simp] theorem joinSurrogates_idem (t : Text) :
    joinSurrogates (joinSurrogates t) = joinSurrogates t :=
  (joined_joinSurrogates t).joinSurrogates

def isAscii (c : CodePoint) : Bool := c.val < 128

theorem isAscii_not_surrogate (h : isAscii c = true) :
    isHighSurrogate c = false ∧ isLowSurrogate c = false := by
  have hc : c.val < 128 := by simpa [isAscii] using h
  have h1 : ¬0xD800 ≤ c.val := by omega
  have h2 : ¬0xDC00 ≤ c.val := by omega
  exact ⟨by simp [isHighSurrogate, h1], by simp [isLowSurrogate, h2]⟩

theorem joined_of_ascii (h : ∀ c ∈ t, isAscii c = true) : Joined t := by
  induction t with
  | nil => exact .nil
  | cons c rest ih =>
    cases rest with
    | nil => exact .singleton c
    | cons d rest =>
      refine List.isChain_cons_cons.2 ⟨?_, ih fun e he => h e (List.mem_cons_of_mem _ he)⟩
      rw [(isAscii_not_surrogate (h c List.mem_cons_self)).1, Bool.false_and]

theorem length_joinSurrogates_le (t : Text) : (joinSurrogates t).length ≤ t.length := by
  induction t using joinSurrogates.induct with
  | case1 => exact Nat.le_refl _
  | case2 c => exact Nat.le_refl _
  | case3 h l rest hp ih =>
    simp only [joinSurrogates, hp, ↓reduceIte, List.length_cons]
    omega
  | case4 h l rest hp ih =>
    rw [joinSurrogates, if_neg hp]
    simpa using ih

/-- Full case folding as far as ASCII can tell: a code point whose folding has an ASCII
character is folded, and every other, whose folding has none, stands for itself. -/
def casefoldChar (c : CodePoint) : Text :=
  if 65 ≤ c.val ∧ c.val ≤ 90 then [c + 32]
  else match c.val with
    | 0xDF | 0x1E9E => text "ss"
    | 0x130 => text "i" ++ [0x307]
    | 0x149 => [0x2BC] ++ text "n"
    | 0x17F => text "s"
    | 0x1F0 => text "j" ++ [0x30C]
    | 0x1E96 => text "h" ++ [0x331]
    | 0x1E97 => text "t" ++ [0x308]
    | 0x1E98 => text "w" ++ [0x30A]
    | 0x1E99 => text "y" ++ [0x30A]
    | 0x1E9A => text "a" ++ [0x2BE]
    | 0x212A => text "k"
    | 0xFB00 => text "ff"
    | 0xFB01 => text "fi"
    | 0xFB02 => text "fl"
    | 0xFB03 => text "ffi"
    | 0xFB04 => text "ffl"
    | 0xFB05 | 0xFB06 => text "st"
    | _ => [c]

def casefold (t : Text) : Text := t.flatMap casefoldChar

theorem casefoldChar_of_le (h : 0xD800 ≤ c.val) (h' : c.val ≤ 0xDFFF ∨ 0x10000 ≤ c.val) :
    casefoldChar c = [c] := by
  have h1 : ¬(65 ≤ c.val ∧ c.val ≤ 90) := by omega
  rw [casefoldChar, if_neg h1]
  split <;> first | rfl | omega

theorem casefoldChar_high (h : isHighSurrogate c = true) : casefoldChar c = [c] := by
  simp only [isHighSurrogate, Bool.and_eq_true, decide_eq_true_eq] at h
  exact casefoldChar_of_le h.1 (by omega)

theorem casefoldChar_low (h : isLowSurrogate c = true) : casefoldChar c = [c] := by
  simp only [isLowSurrogate, Bool.and_eq_true, decide_eq_true_eq] at h
  exact casefoldChar_of_le (by omega) (by omega)

theorem not_ascii_high (h : isHighSurrogate c = true) : isAscii c = false := by
  simp only [isHighSurrogate, Bool.and_eq_true, decide_eq_true_eq] at h
  have hc : ¬c.val < 128 := by omega
  simp [isAscii, hc]

theorem not_ascii_pair (hh : isHighSurrogate h = true) (hl : isLowSurrogate l = true) :
    isAscii (surrogatePair h l) = false := by
  have hv := surrogatePair_val hh hl
  have hc : ¬(surrogatePair h l).val < 128 := by omega
  simp [isAscii, hc]

/-- The characters that `str.strip` removes. -/
def isSpace (c : CodePoint) : Bool :=
  (9 ≤ c.val && c.val ≤ 13) || (28 ≤ c.val && c.val ≤ 32) || c.val == 0x85 || c.val == 0xA0 ||
    c.val == 0x1680 || (0x2000 ≤ c.val && c.val ≤ 0x200A) || c.val == 0x2028 || c.val == 0x2029 ||
    c.val == 0x202F || c.val == 0x205F || c.val == 0x3000

/-- A per-character view that shows only ASCII cannot see whether surrogates are joined. -/
theorem filter_ascii_join (f : CodePoint → Text)
    (hs : ∀ c, isHighSurrogate c = true ∨ isLowSurrogate c = true ∨ 0x10000 ≤ c.val → f c = [])
    (t : Text) : (joinSurrogates t).flatMap f = t.flatMap f := by
  induction t using joinSurrogates.induct with
  | case1 => rfl
  | case2 c => rfl
  | case3 h l rest hp ih =>
    obtain ⟨hh, hl⟩ := Bool.and_eq_true_iff.1 hp
    have hpair := hs (surrogatePair h l) (.inr (.inr (surrogatePair_val hh hl)))
    rw [joinSurrogates, if_pos hp]
    simp only [List.flatMap_cons, hpair, hs h (.inl hh), hs l (.inr (.inl hl)), List.nil_append, ih]
  | case4 h l rest hp ih =>
    rw [joinSurrogates, if_neg hp, List.flatMap_cons, ih]
    rfl

/-- A text that joins to ASCII had nothing to join. -/
theorem joinSurrogates_of_ascii (h : ∀ c ∈ joinSurrogates t, isAscii c = true) :
    joinSurrogates t = t := by
  induction t using joinSurrogates.induct with
  | case1 => rfl
  | case2 c => rfl
  | case3 a b rest hs ih =>
    obtain ⟨ha, hb⟩ := Bool.and_eq_true_iff.1 hs
    rw [joinSurrogates, if_pos hs] at h
    have hc := h _ List.mem_cons_self
    rw [not_ascii_pair ha hb] at hc
    cases hc
  | case4 a b rest hs ih =>
    rw [joinSurrogates, if_neg hs] at h ⊢
    rw [ih fun c hc => h c (List.mem_cons_of_mem _ hc)]

theorem prefix_join {p : Text} (f : CodePoint → Text) (hp : ∀ c ∈ p, isAscii c = true)
    (hs : ∀ c, isHighSurrogate c = true ∨ isLowSurrogate c = true ∨ 0x10000 ≤ c.val → f c = [c])
    (t : Text) : p <+: (joinSurrogates t).flatMap f ↔ p <+: t.flatMap f := by
  induction t using joinSurrogates.induct generalizing p with
  | case1 => rfl
  | case2 c => rfl
  | case3 h l rest hs' ih =>
    obtain ⟨hh, hl⟩ := Bool.and_eq_true_iff.1 hs'
    rw [joinSurrogates, if_pos hs']
    simp only [List.flatMap_cons, hs (surrogatePair h l) (.inr (.inr (surrogatePair_val hh hl))),
      hs h (.inl hh)]
    cases p with
    | nil => simp
    | cons a p =>
      have ha := hp a List.mem_cons_self
      have h1 : a ≠ surrogatePair h l := fun he => by
        rw [he, not_ascii_pair hh hl] at ha
        cases ha
      have h2 : a ≠ h := fun he => by
        rw [he, not_ascii_high hh] at ha
        cases ha
      simp [h1, h2]
  | case4 h l rest hs' ih =>
    rw [joinSurrogates, if_neg hs', List.flatMap_cons, List.flatMap_cons]
    have key {p q : Text} (hp : ∀ c ∈ p, isAscii c = true) :
        p <+: q ++ (joinSurrogates (l :: rest)).flatMap f ↔ p <+: q ++ (l :: rest).flatMap f := by
      induction q generalizing p with
      | nil => exact ih hp
      | cons b q ihq =>
        cases p with
        | nil => simp
        | cons a p =>
          simp only [List.cons_append, List.cons_prefix_cons]
          exact and_congr_right fun _ => ihq fun c hc => hp c (List.mem_cons_of_mem _ hc)
    exact key hp

theorem mem_splitOn [BEq α] [LawfulBEq α] {a c : α} {l : List α} (h : c ∈ l) :
    c = a ∨ ∃ p ∈ l.splitOn a, c ∈ p := by
  have hl : [a].intercalate (l.splitOn a) = l := List.intercalate_splitOn a
  rw [← hl, List.intercalate] at h
  obtain ⟨p, hp, hc⟩ := List.mem_flatten.1 h
  generalize l.splitOn a = parts at hp
  induction parts with
  | nil => cases hp
  | cons q parts ih =>
    cases parts with
    | nil => exact .inr ⟨p, hp, hc⟩
    | cons q' parts =>
      rw [List.intersperse_cons_cons] at hp
      rcases List.mem_cons.1 hp with rfl | hp
      · exact .inr ⟨p, List.mem_cons_self, hc⟩
      · rcases List.mem_cons.1 hp with rfl | hp
        · exact .inl (List.mem_singleton.1 hc)
        · rcases ih hp with he | ⟨p', hp', hc'⟩
          · exact .inl he
          · exact .inr ⟨p', List.mem_cons_of_mem _ hp', hc'⟩

end Library
