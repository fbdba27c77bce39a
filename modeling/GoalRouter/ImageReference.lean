import GoalRouter.Library.ParameterExpansion
import GoalRouter.Library.RegularExpression
import GoalRouter.Library.StringIndex

namespace GoalRouter
open Library
set_option autoImplicit true

/-- The characters of a range of a bracket expression. -/
def charRange (first last : CodePoint) : List CodePoint :=
  (List.range' first.val (last.val + 1 - first.val)).map (Fin.ofNat 0x110000)

def upperCase : List CodePoint := charRange 0x41 0x5A

def lowerCase : List CodePoint := charRange 0x61 0x7A

def digits : List CodePoint := charRange 0x30 0x39

namespace PosixLauncher

/-- `printf '%s\n' "$value" | grep -Eq "^pattern$"` -/
def grep (pattern : RegularExpression CodePoint) (value : Text) : Bool :=
  (value.splitOn 0x0A).any pattern.rmatch

def validSingleLine (value : Text) : Bool :=
  !(patternMatches [] value || patternMatches (text "*[![:print:]]*") value)

def validImageDigest (digest : Text) : Bool :=
  if !validSingleLine digest then false
  else if patternMatches (text "sha256:*") digest then
    let digestHex := removeSmallestPrefix (text "sha256:") digest
    if digestHex.length ≠ 64 then false
    else !patternMatches (text "*[!0-9a-f]*") digestHex
  else false

/-- `[A-Za-z0-9_][A-Za-z0-9_.-]{0,127}` -/
def imageTag : RegularExpression CodePoint :=
  oneOf (upperCase ++ lowerCase ++ digits ++ text "_") *
    upTo 127 (oneOf (upperCase ++ lowerCase ++ digits ++ text "_.-"))

/-- `[a-z0-9]+(([.]|__|_|-+)[a-z0-9]+)*` -/
def imagePathComponent : RegularExpression CodePoint :=
  oneOrMore (oneOf (lowerCase ++ digits)) *
    ((oneOf (text ".") + literally (text "__") + literally (text "_") +
      oneOrMore (literally (text "-"))) * oneOrMore (oneOf (lowerCase ++ digits))).star

/-- `component(/component)*` -/
def imageRemotePattern : RegularExpression CodePoint :=
  imagePathComponent * (literally (text "/") * imagePathComponent).star

/-- `([A-Za-z0-9]|[A-Za-z0-9][A-Za-z0-9-]*[A-Za-z0-9])` -/
def domainComponent : RegularExpression CodePoint :=
  oneOf (upperCase ++ lowerCase ++ digits) +
    oneOf (upperCase ++ lowerCase ++ digits) *
      (oneOf (upperCase ++ lowerCase ++ digits ++ text "-")).star *
      oneOf (upperCase ++ lowerCase ++ digits)

/-- `component([.]component)*(:[0-9]+)?` -/
def domainPattern : RegularExpression CodePoint :=
  domainComponent * (oneOf (text ".") * domainComponent).star *
    optionally (literally (text ":") * oneOrMore (oneOf digits))

/-- `\[[A-Fa-f0-9:]+\](:[0-9]+)?` -/
def ipv6DomainPattern : RegularExpression CodePoint :=
  literally (text "[") *
    oneOrMore (oneOf (charRange 0x41 0x46 ++ charRange 0x61 0x66 ++ digits ++ text ":")) *
    literally (text "]") * optionally (literally (text ":") * oneOrMore (oneOf digits))

def validRegistryDomain (domain : Text) : Bool := grep (domainPattern + ipv6DomainPattern) domain

def validRemoteName (name : Text) : Bool := grep imageRemotePattern name

/-- The part of `valid_named_image_reference` after the tag. -/
def validReferenceName (referenceName : Text) : Bool :=
  if referenceName.length > 255 then false
  else if patternMatches (text "*/*") referenceName then
    let referenceFirst := removeLargestSuffix (text "/*") referenceName
    if ["localhost", "*.*", "*:*", "\\[*\\]"].any fun pattern =>
        patternMatches (text pattern) referenceFirst then
      validRegistryDomain referenceFirst &&
        validRemoteName (removeSmallestPrefix (text "*/") referenceName)
    else validRemoteName referenceName
  else validRemoteName referenceName

def validNamedImageReference (reference : Text) : Bool :=
  if !validSingleLine reference then false
  else if patternMatches (text "-*") reference then false
  else
    let referenceLastComponent := removeLargestPrefix (text "*/") reference
    if patternMatches (text "*:*") referenceLastComponent then
      let referenceTag := removeLargestPrefix (text "*:") referenceLastComponent
      if !grep imageTag referenceTag then false
      else validReferenceName (removeSmallestSuffix (text ":*") reference)
    else validReferenceName reference

def validImageOverride (override : Text) : Bool :=
  if !validSingleLine override then false
  else if patternMatches (text "*@*") override then
    let overrideName := removeLargestSuffix (text "@*") override
    let overrideDigest := removeSmallestPrefix (text "*@") override
    if patternMatches (text "*@*") overrideDigest then false
    else if !validNamedImageReference overrideName then false
    else validImageDigest overrideDigest
  else validNamedImageReference override

end PosixLauncher

namespace WindowsLauncher

/-- `\A[\x20-\x7e]+\z` -/
def singleLine : RegularExpression CodePoint := oneOrMore (oneOf (charRange 0x20 0x7E))

def testSingleLine (value : Text) : Bool := singleLine.rmatch value

/-- `\Asha256:[0-9a-f]{64}\z` -/
def testDigest (digest : Text) : Bool :=
  testSingleLine digest &&
    (literally (text "sha256:") * oneOf (digits ++ charRange 0x61 0x66) ^ 64).rmatch digest

/-- `(?:[A-Za-z0-9]|[A-Za-z0-9][A-Za-z0-9-]*[A-Za-z0-9])` -/
def domainComponent : RegularExpression CodePoint :=
  oneOf (upperCase ++ lowerCase ++ digits) +
    oneOf (upperCase ++ lowerCase ++ digits) *
      (oneOf (upperCase ++ lowerCase ++ digits ++ text "-")).star *
      oneOf (upperCase ++ lowerCase ++ digits)

/-- `component(?:[.]component)*(?::[0-9]+)?` -/
def domainPattern : RegularExpression CodePoint :=
  domainComponent * (oneOf (text ".") * domainComponent).star *
    optionally (literally (text ":") * oneOrMore (oneOf digits))

/-- `\[[A-Fa-f0-9:]+\](?::[0-9]+)?` -/
def ipv6Pattern : RegularExpression CodePoint :=
  literally (text "[") *
    oneOrMore (oneOf (charRange 0x41 0x46 ++ charRange 0x61 0x66 ++ digits ++ text ":")) *
    literally (text "]") * optionally (literally (text ":") * oneOrMore (oneOf digits))

def testRegistryDomain (domain : Text) : Bool :=
  domainPattern.rmatch domain || ipv6Pattern.rmatch domain

/-- `[A-Za-z0-9_][A-Za-z0-9_.-]{0,127}` -/
def tag : RegularExpression CodePoint :=
  oneOf (upperCase ++ lowerCase ++ digits ++ text "_") *
    upTo 127 (oneOf (upperCase ++ lowerCase ++ digits ++ text "_.-"))

/-- `[a-z0-9]+(?:(?:[.]|__|_|-+)[a-z0-9]+)*` -/
def component : RegularExpression CodePoint :=
  oneOrMore (oneOf (lowerCase ++ digits)) *
    ((oneOf (text ".") + literally (text "__") + literally (text "_") +
      oneOrMore (literally (text "-"))) * oneOrMore (oneOf (lowerCase ++ digits))).star

/-- `component(?:/component)*` -/
def remotePattern : RegularExpression CodePoint :=
  component * (literally (text "/") * component).star

/-- The part of `Test-GoalRouterNamedImage` after the tag. -/
def testReferenceName (name : Text) : Bool :=
  if name.length > 255 then false
  else
    let firstSlash := indexOf name 0x2F
    if firstSlash ≥ 0 then
      let first := substringTo name firstSlash
      if first = text "localhost" || first.contains 0x2E || first.contains 0x3A ||
          (text "[").isPrefixOf first then
        testRegistryDomain first && remotePattern.rmatch (substringFrom name (firstSlash + 1))
      else remotePattern.rmatch name
    else remotePattern.rmatch name

def testNamedImage (image : Text) : Bool :=
  if !testSingleLine image then false
  else if (text "-").isPrefixOf image || image.contains 0x40 then false
  else
    let lastSlash := lastIndexOf image 0x2F
    let lastComponent := substringFrom image (lastSlash + 1)
    if lastComponent.contains 0x3A then
      let tagSeparator := lastIndexOf image 0x3A
      if !tag.rmatch (substringFrom image (tagSeparator + 1)) then false
      else testReferenceName (substringTo image tagSeparator)
    else testReferenceName image

def testImageOverride (image : Text) : Bool :=
  if !testSingleLine image then false
  else
    let at? := indexOf image 0x40
    if at? < 0 then testNamedImage image
    else if at? ≠ lastIndexOf image 0x40 then false
    else testNamedImage (substringTo image at?) && testDigest (substringFrom image (at? + 1))

end WindowsLauncher

/-- A printable character of ASCII. -/
def isPrintable (c : CodePoint) : Bool := 0x20 ≤ c.val && c.val ≤ 0x7E

section Lines

variable {t : Text} {c : CodePoint}

theorem mem_charRange {first last : CodePoint} :
    c ∈ charRange first last ↔ first ≤ c ∧ c ≤ last := by
  rw [charRange, List.mem_map]
  constructor
  · rintro ⟨n, hn, rfl⟩
    rw [List.mem_range'_1] at hn
    have hlast := last.isLt
    have hval : (Fin.ofNat 0x110000 n).val = n := Nat.mod_eq_of_lt (by omega)
    rw [Fin.le_def, Fin.le_def, hval]
    omega
  · rintro ⟨hf, hl⟩
    rw [Fin.le_def] at hf hl
    exact ⟨c.val, List.mem_range'_1.2 (by omega), Fin.ext (Nat.mod_eq_of_lt c.isLt)⟩

theorem testSingleLine_iff : WindowsLauncher.testSingleLine t = true ↔
    t ≠ [] ∧ ∀ c ∈ t, isPrintable c = true := by
  rw [WindowsLauncher.testSingleLine, WindowsLauncher.singleLine, oneOrMore_oneOf_rmatch]
  simp only [mem_charRange, isPrintable, Bool.and_eq_true, decide_eq_true_eq]
  rfl

theorem inClass_print (c : CodePoint) : inClass (text "print") c = isPrintable c := by
  have hc : inClass (text "print") c = (decide (0x21 ≤ c.val) && decide (c.val ≤ 0x7E) ||
      decide (c.val = 0x20)) := by
    rw [inClass]
    repeat rw [if_neg (by decide)]
    rw [if_pos rfl]
  rw [hc, isPrintable, Bool.eq_iff_iff]
  simp only [Bool.or_eq_true, Bool.and_eq_true, decide_eq_true_eq]
  omega

theorem validSingleLine_iff : PosixLauncher.validSingleLine t = true ↔
    t ≠ [] ∧ ∀ c ∈ t, isPrintable c = true := by
  have hp : parsePattern (text "*[![:print:]]*") =
      [.anyMany, .bracket true [.characterClass (text "print")], .anyMany] := rfl
  have hadmits (c : CodePoint) :
      (PatternItem.bracket true [.characterClass (text "print")]).admits c = !isPrintable c := by
    rw [← inClass_print]
    simp [PatternItem.admits, BracketMember.admits]
  have hempty : patternMatches [] t = true ↔ t = [] := List.isEmpty_iff
  rw [PosixLauncher.validSingleLine, Bool.not_eq_true', Bool.or_eq_false_iff, Bool.eq_false_iff,
    Bool.eq_false_iff, ne_eq, ne_eq, hempty, patternMatches_some hp]
  simp only [hadmits, Bool.not_eq_true', not_exists, not_and, Bool.not_eq_false]

theorem singleLines_agree (t : Text) :
    PosixLauncher.validSingleLine t = WindowsLauncher.testSingleLine t := by
  rw [Bool.eq_iff_iff, validSingleLine_iff, testSingleLine_iff]

theorem newline_not_mem (h : ∀ c ∈ t, isPrintable c = true) : (0x0A : CodePoint) ∉ t :=
  fun hm => absurd (h _ hm) (by decide)

/-- `grep` sees a single line. -/
theorem grep_eq {pattern : RegularExpression CodePoint} (h : ∀ c ∈ t, isPrintable c = true) :
    PosixLauncher.grep pattern t = pattern.rmatch t := by
  rw [PosixLauncher.grep, List.splitOn_eq_singleton (newline_not_mem h), List.any_cons,
    List.any_nil, Bool.or_false]

theorem digests_agree (t : Text) :
    PosixLauncher.validImageDigest t = WindowsLauncher.testDigest t := by
  have hp : parsePattern (text "*[!0-9a-f]*") =
      [.anyMany, .bracket true [.range 0x30 0x39, .range 0x61 0x66], .anyMany] := rfl
  have hadmits (c : CodePoint) :
      (PatternItem.bracket true [.range 0x30 0x39, .range 0x61 0x66]).admits c = true ↔
        c ∉ digits ++ charRange 0x61 0x66 := by
    simp [PatternItem.admits, BracketMember.admits, digits, mem_charRange, imp_iff_not_or]
  have hordinary : ∀ c ∈ text "sha256:", isOrdinary c = true :=
    List.all_eq_true.1 (by decide +kernel)
  have hprefix : text "sha256:*" = text "sha256:" ++ [asterisk] := rfl
  rw [PosixLauncher.validImageDigest, WindowsLauncher.testDigest, singleLines_agree, hprefix]
  cases WindowsLauncher.testSingleLine t with
  | false => rfl
  | true =>
    have htrue : ¬(!true) = true := Bool.false_ne_true
    rw [Bool.true_and, Bool.eq_iff_iff, literally_mul_rmatch, if_neg htrue]
    by_cases hs : text "sha256:" <+: t
    · obtain ⟨hex, rfl⟩ := hs
      have hright : (∃ u, text "sha256:" ++ hex = text "sha256:" ++ u ∧
          (oneOf (digits ++ charRange 0x61 0x66) ^ 64).rmatch u = true) ↔
            hex.length = 64 ∧ ∀ c ∈ hex, c ∈ digits ++ charRange 0x61 0x66 := by
        simp only [List.append_cancel_left_eq, exists_eq_left', pow_oneOf_rmatch]
      rw [hright, if_pos ((patternMatches_beginning hordinary).2 (List.prefix_append _ hex)),
        removeSmallestPrefix_ordinary hordinary]
      dsimp only
      by_cases hn : hex.length = 64
      · rw [if_neg (not_not.2 hn), Bool.not_eq_true', Bool.eq_false_iff, ne_eq,
          patternMatches_some hp]
        simp only [hadmits, not_exists, not_and, not_not, hn, true_and]
      · rw [if_pos hn]
        exact iff_of_false Bool.false_ne_true fun h => hn h.1
    · rw [if_neg fun h => hs ((patternMatches_beginning hordinary).1 h)]
      apply iff_of_false
      · exact Bool.false_ne_true
      · rintro ⟨u, rfl, _⟩
        exact hs (List.prefix_append _ u)

end Lines

section Names

variable {t a b m : Text}

theorem registryDomains_agree (h : ∀ c ∈ t, isPrintable c = true) :
    PosixLauncher.validRegistryDomain t = WindowsLauncher.testRegistryDomain t := by
  rw [PosixLauncher.validRegistryDomain, grep_eq h, Bool.eq_iff_iff,
    RegularExpression.add_rmatch_iff, WindowsLauncher.testRegistryDomain, Bool.or_eq_true]
  rfl

theorem remoteNames_agree (h : ∀ c ∈ t, isPrintable c = true) :
    PosixLauncher.validRemoteName t = WindowsLauncher.remotePattern.rmatch t :=
  grep_eq h

theorem startsIn_remotePattern : StartsIn (lowerCase ++ digits) WindowsLauncher.remotePattern :=
  (startsIn_oneOf _).mul.mul.mul

theorem startsIn_domainPattern :
    StartsIn (upperCase ++ lowerCase ++ digits) WindowsLauncher.domainPattern :=
  ((startsIn_oneOf _).add (startsIn_oneOf _).mul.mul).mul.mul

/-- A host in brackets ends at the closing bracket, or has a port. -/
theorem ipv6Pattern_ends (h : WindowsLauncher.ipv6Pattern.rmatch t = true) :
    0x3A ∈ t ∨ ∃ before, t = before ++ [0x5D] := by
  obtain ⟨host, port, rfl, hh, hp⟩ := (RegularExpression.mul_rmatch_iff _ _ _).1 h
  obtain ⟨before, close, rfl, _, hc⟩ := (RegularExpression.mul_rmatch_iff _ _ _).1 hh
  rw [literally_rmatch] at hc
  subst hc
  rcases optionally_rmatch.1 hp with rfl | hp
  · exact .inr ⟨before, List.append_nil _⟩
  · obtain ⟨u, rfl, _⟩ := literally_mul_rmatch.1 hp
    exact .inl (List.mem_append_right _ (List.mem_append_left u (List.mem_singleton_self _)))

theorem not_domain_of_bracket (hc : 0x3A ∉ t) (hb : ¬∃ before, t = before ++ [0x5D])
    (ht : t = 0x5B :: m) : WindowsLauncher.testRegistryDomain t = false := by
  rw [WindowsLauncher.testRegistryDomain, Bool.or_eq_false_iff, Bool.eq_false_iff,
    Bool.eq_false_iff]
  constructor
  · intro h
    obtain ⟨c, hm, u, hu⟩ := startsIn_domainPattern t h
    rw [ht] at hu
    cases hu
    revert hm
    decide +kernel
  · intro h
    rcases ipv6Pattern_ends h with h | h
    · exact hc h
    · exact hb h

theorem not_remote_of_bracket (m : Text) :
    WindowsLauncher.remotePattern.rmatch (0x5B :: m) = false := by
  rw [Bool.eq_false_iff]
  intro h
  obtain ⟨c, hm, u, hu⟩ := startsIn_remotePattern _ h
  cases hu
  revert hm
  decide +kernel

theorem posix_domain_iff : (["localhost", "*.*", "*:*", "\\[*\\]"].any fun pattern =>
    patternMatches (text pattern) a) = true ↔
      a = text "localhost" ∨ 0x2E ∈ a ∨ 0x3A ∈ a ∨ ∃ m, a = 0x5B :: (m ++ [0x5D]) := by
  have hp : parsePattern (text "\\[*\\]") = [.exactly 0x5B, .anyMany, .exactly 0x5D] := rfl
  have hbracket : patternMatches (text "\\[*\\]") a = true ↔ ∃ m, a = 0x5B :: (m ++ [0x5D]) := by
    rw [patternMatches, hp, itemsMatch_exactly_cons]
    constructor
    · rintro ⟨rest, rfl, h⟩
      obtain ⟨m, rfl⟩ := itemsMatch_ending.1 h
      exact ⟨m, rfl⟩
    · rintro ⟨m, rfl⟩
      exact ⟨m ++ [0x5D], rfl, itemsMatch_ending.2 ⟨m, rfl⟩⟩
  have hlocal : patternMatches (text "localhost") a = true ↔ a = text "localhost" :=
    patternMatches_ordinary (List.all_eq_true.1 (by decide +kernel)) a
  have hdot : patternMatches (text "*.*") a = true ↔ 0x2E ∈ a := patternMatches_containing rfl
  have hcolon : patternMatches (text "*:*") a = true ↔ 0x3A ∈ a := patternMatches_containing rfl
  simp only [List.any_cons, List.any_nil, Bool.or_false, Bool.or_eq_true, hlocal, hdot, hcolon,
    hbracket]

theorem windows_domain_iff : (a = text "localhost" || a.contains 0x2E || a.contains 0x3A ||
    (text "[").isPrefixOf a) = true ↔
      a = text "localhost" ∨ 0x2E ∈ a ∨ 0x3A ∈ a ∨ ∃ m, a = 0x5B :: m := by
  have hbracket : (text "[").isPrefixOf a = true ↔ ∃ m, a = 0x5B :: m := by
    rw [List.isPrefixOf_iff_prefix]
    constructor
    · rintro ⟨m, rfl⟩
      exact ⟨m, rfl⟩
    · rintro ⟨m, rfl⟩
      exact ⟨m, rfl⟩
  rw [Bool.or_eq_true, Bool.or_eq_true, Bool.or_eq_true, decide_eq_true_eq, List.contains_iff_mem,
    List.contains_iff_mem, hbracket, or_assoc, or_assoc]

theorem referenceNames_agree (h : ∀ c ∈ t, isPrintable c = true) :
    PosixLauncher.validReferenceName t = WindowsLauncher.testReferenceName t := by
  rw [PosixLauncher.validReferenceName, WindowsLauncher.testReferenceName, remoteNames_agree h]
  by_cases hl : t.length > 255
  · rw [if_pos hl, if_pos hl]
  rw [if_neg hl, if_neg hl]
  have hcontains : patternMatches (text "*/*") t = true ↔ 0x2F ∈ t := patternMatches_containing rfl
  by_cases hs : 0x2F ∈ t
  · rw [if_pos (hcontains.2 hs)]
    obtain ⟨a, b, rfl, ha⟩ := List.eq_append_cons_of_mem hs
    have hpa : ∀ c ∈ a, isPrintable c = true := fun c hc => h c (List.mem_append_left _ hc)
    have hpb : ∀ c ∈ b, isPrintable c = true :=
      fun c hc => h c (List.mem_append_right _ (List.mem_cons_of_mem _ hc))
    have hfirst : removeLargestSuffix (text "/*") (a ++ 0x2F :: b) = a :=
      removeLargestSuffix_first rfl ha
    have hrest : removeSmallestPrefix (text "*/") (a ++ 0x2F :: b) = b :=
      removeSmallestPrefix_first rfl ha
    dsimp only
    rw [hfirst, hrest, indexOf_first ha, if_pos (Int.natCast_nonneg _), substringTo_before,
      substringFrom_after, registryDomains_agree hpa, remoteNames_agree hpb]
    by_cases hw : a = text "localhost" ∨ 0x2E ∈ a ∨ 0x3A ∈ a ∨ ∃ m, a = 0x5B :: m
    · rw [if_pos (windows_domain_iff.2 hw)]
      by_cases hx : a = text "localhost" ∨ 0x2E ∈ a ∨ 0x3A ∈ a ∨ ∃ m, a = 0x5B :: (m ++ [0x5D])
      · rw [if_pos (posix_domain_iff.2 hx)]
      · -- An opening bracket without a closing one: neither a domain nor a name.
        rw [if_neg fun hm => hx (posix_domain_iff.1 hm)]
        rw [not_or, not_or, not_or] at hx
        obtain ⟨hlocal, hdot, hcolon, hclosed⟩ := hx
        obtain ⟨m, rfl⟩ := ((hw.resolve_left hlocal).resolve_left hdot).resolve_left hcolon
        rw [List.cons_append, not_remote_of_bracket, not_domain_of_bracket hcolon _ rfl,
          Bool.false_and]
        rintro ⟨before, hb⟩
        cases before with
        | nil => exact absurd (List.cons.inj hb).1 (by decide)
        | cons c before =>
          rw [List.cons_append] at hb
          exact hclosed ⟨before, (List.cons.inj hb).2 ▸ rfl⟩
    · have hx : ¬(a = text "localhost" ∨ 0x2E ∈ a ∨ 0x3A ∈ a ∨ ∃ m, a = 0x5B :: (m ++ [0x5D])) := by
        intro hx
        rcases hx with h | h | h | ⟨m, h⟩
        · exact hw (.inl h)
        · exact hw (.inr (.inl h))
        · exact hw (.inr (.inr (.inl h)))
        · exact hw (.inr (.inr (.inr ⟨_, h⟩)))
      rw [if_neg fun hm => hw (windows_domain_iff.1 hm),
        if_neg fun hm => hx (posix_domain_iff.1 hm)]
  · rw [if_neg fun hm => hs (hcontains.1 hm), indexOf_absent hs]
    rfl

/-- What follows the last slash, of a string without one the whole. -/
theorem exists_lastComponent (t : Text) : ∃ before last, t = before ++ last ∧
    removeLargestPrefix (text "*/") t = last ∧ substringFrom t (lastIndexOf t 0x2F + 1) = last := by
  by_cases hs : 0x2F ∈ t
  · obtain ⟨a, b, rfl, hb⟩ := exists_last hs
    refine ⟨a ++ [0x2F], b, (List.append_cons a 0x2F b), removeLargestPrefix_last rfl hb, ?_⟩
    rw [lastIndexOf_last hb, substringFrom_after]
  · refine ⟨[], t, rfl, removeLargestPrefix_absent rfl hs, ?_⟩
    rw [lastIndexOf_absent hs]
    rfl

theorem namedImages_agree (hat : 0x40 ∉ t) :
    PosixLauncher.validNamedImageReference t = WindowsLauncher.testNamedImage t := by
  rw [PosixLauncher.validNamedImageReference, WindowsLauncher.testNamedImage, singleLines_agree]
  cases hl : WindowsLauncher.testSingleLine t with
  | false => rfl
  | true =>
    obtain ⟨_, hp⟩ := testSingleLine_iff.1 hl
    have htrue : ¬(!true) = true := Bool.false_ne_true
    have hdash : patternMatches (text "-*") t = ((text "-").isPrefixOf t || t.contains 0x40) := by
      have hcontains : t.contains 0x40 = false :=
        Bool.eq_false_iff.2 fun hm => hat (List.contains_iff_mem.1 hm)
      have hordinary : ∀ c ∈ text "-", isOrdinary c = true := List.all_eq_true.1 (by decide +kernel)
      rw [hcontains, Bool.or_false, Bool.eq_iff_iff, List.isPrefixOf_iff_prefix]
      exact patternMatches_beginning hordinary
    rw [if_neg htrue, if_neg htrue, hdash]
    split
    · rfl
    · obtain ⟨before, last, rfl, hposix, hwindows⟩ := exists_lastComponent t
      dsimp only
      rw [hposix, hwindows]
      have hcolon : patternMatches (text "*:*") last = true ↔ 0x3A ∈ last :=
        patternMatches_containing rfl
      by_cases hc : 0x3A ∈ last
      · rw [if_pos (hcolon.2 hc), if_pos (List.contains_iff_mem.2 hc)]
        obtain ⟨u, v, rfl, hv⟩ := exists_last hc
        have htag : removeLargestPrefix (text "*:") (u ++ 0x3A :: v) = v :=
          removeLargestPrefix_last rfl hv
        have hname : removeSmallestSuffix (text ":*") (before ++ u ++ 0x3A :: v) = before ++ u :=
          removeSmallestSuffix_last rfl hv
        have hpv : ∀ c ∈ v, isPrintable c = true := fun c hm =>
          hp c (List.mem_append_right _ (List.mem_append_right _ (List.mem_cons_of_mem _ hm)))
        have hpn : ∀ c ∈ before ++ u, isPrintable c = true := fun c hm =>
          hp c (List.append_assoc .. ▸ List.mem_append_left _ hm)
        rw [htag, grep_eq hpv, ← List.append_assoc, hname, lastIndexOf_last hv, substringFrom_after,
          substringTo_before, referenceNames_agree hpn]
        rfl
      · rw [if_neg fun hm => hc (hcolon.1 hm), if_neg fun hm => hc (List.contains_iff_mem.1 hm),
          referenceNames_agree hp]

theorem imageOverrides_agree (t : Text) :
    PosixLauncher.validImageOverride t = WindowsLauncher.testImageOverride t := by
  rw [PosixLauncher.validImageOverride, WindowsLauncher.testImageOverride, singleLines_agree]
  cases hl : WindowsLauncher.testSingleLine t with
  | false => rfl
  | true =>
    have htrue : ¬(!true) = true := Bool.false_ne_true
    rw [if_neg htrue, if_neg htrue]
    have hcontains (t : Text) : patternMatches (text "*@*") t = true ↔ 0x40 ∈ t :=
      patternMatches_containing rfl
    by_cases hat : 0x40 ∈ t
    · obtain ⟨a, b, rfl, ha⟩ := List.eq_append_cons_of_mem hat
      have hname : removeLargestSuffix (text "@*") (a ++ 0x40 :: b) = a :=
        removeLargestSuffix_first rfl ha
      have hdigest : removeSmallestPrefix (text "*@") (a ++ 0x40 :: b) = b :=
        removeSmallestPrefix_first rfl ha
      dsimp only
      rw [if_pos ((hcontains _).2 hat), hname, hdigest, indexOf_first ha,
        if_neg (Int.not_lt.2 (Int.natCast_nonneg _)), substringTo_before, substringFrom_after]
      by_cases hb : 0x40 ∈ b
      · have hlast : (a.length : Int) ≠ lastIndexOf (a ++ 0x40 :: b) 0x40 := by
          obtain ⟨u, v, rfl, hv⟩ := exists_last hb
          rw [← List.cons_append, ← List.append_assoc, lastIndexOf_last hv, List.length_append,
            List.length_cons]
          omega
        rw [if_pos ((hcontains b).2 hb), if_pos hlast]
      · rw [if_neg fun hm => hb ((hcontains b).1 hm), lastIndexOf_last hb, if_neg (not_not.2 rfl),
          namedImages_agree ha, digests_agree]
        cases WindowsLauncher.testNamedImage a <;> rfl
    · rw [if_neg fun hm => hat ((hcontains t).1 hm), indexOf_absent hat, namedImages_agree hat]
      rfl

end Names

section Encodings

variable {s : String} {t : Text}

/-- The bytes of an argument, which are its characters in the C locale. -/
def shellArgument (s : String) : Text :=
  s.toList.flatMap fun c => (String.utf8EncodeChar c).map fun b => Fin.ofNat 0x110000 b.toNat

/-- The UTF-16 code units of a character. -/
def utf16Units (c : Char) : Text :=
  if c.toNat < 0x10000 then [Fin.ofNat 0x110000 c.toNat]
  else [Fin.ofNat 0x110000 (0xD800 + (c.toNat - 0x10000) / 0x400),
    Fin.ofNat 0x110000 (0xDC00 + (c.toNat - 0x10000) % 0x400)]

def dotNetString (s : String) : Text := s.toList.flatMap utf16Units

theorem validImageOverride_unprintable (h : c ∈ t) (hc : isPrintable c = false) :
    PosixLauncher.validImageOverride t = false := by
  have hl : PosixLauncher.validSingleLine t = false := by
    rw [Bool.eq_false_iff]
    intro hl
    rw [(validSingleLine_iff.1 hl).2 c h] at hc
    cases hc
  rw [PosixLauncher.validImageOverride, hl]
  rfl

theorem isPrintable_ofNat (h : 0x80 ≤ n) (hn : n < 0x110000) :
    isPrintable (Fin.ofNat 0x110000 n) = false := by
  have hv : (Fin.ofNat 0x110000 n).val = n := Nat.mod_eq_of_lt hn
  rw [isPrintable, hv, Bool.and_eq_false_iff, decide_eq_false_iff_not, decide_eq_false_iff_not]
  omega

theorem encodings_ascii {c : Char} (h : c.toNat < 0x80) :
    ((String.utf8EncodeChar c).map fun b => Fin.ofNat 0x110000 b.toNat) = utf16Units c := by
  have hv : c.val.toNat ≤ 0x7F := Nat.le_of_lt_succ h
  have hb : (UInt8.ofNat c.val.toNat).toNat = c.val.toNat := by
    rw [UInt8.toNat_ofNat']
    omega
  rw [String.utf8EncodeChar, if_pos hv, utf16Units, if_pos (Nat.lt_trans h (by decide)),
    List.map_singleton, hb]
  rfl

theorem exists_unprintable_byte {c : Char} (h : ¬c.toNat < 0x80) :
    ∃ d ∈ (String.utf8EncodeChar c).map fun b => (Fin.ofNat 0x110000 b.toNat : CodePoint),
      isPrintable d = false := by
  have hv : ¬c.val.toNat ≤ 0x7F := fun hle => h (Nat.lt_succ_of_le hle)
  have hbyte {n : Nat} (hn : 0x80 ≤ n) (hlt : n < 0x100) :
      isPrintable (Fin.ofNat 0x110000 (UInt8.ofNat n).toNat) = false := by
    have hb : (UInt8.ofNat n).toNat = n := by
      rw [UInt8.toNat_ofNat']
      omega
    rw [hb]
    exact isPrintable_ofNat hn (by omega)
  rw [String.utf8EncodeChar, if_neg hv]
  split
  · exact ⟨_, List.mem_cons_self, hbyte (by omega) (by omega)⟩
  · split
    · exact ⟨_, List.mem_cons_self, hbyte (by omega) (by omega)⟩
    · exact ⟨_, List.mem_cons_self, hbyte (by omega) (by omega)⟩

theorem exists_unprintable_unit {c : Char} (h : ¬c.toNat < 0x80) :
    ∃ d ∈ utf16Units c, isPrintable d = false := by
  rw [utf16Units]
  split
  · exact ⟨_, List.mem_singleton_self _, isPrintable_ofNat (by omega) (by omega)⟩
  · have hc : c.toNat < 0x110000 := by
      have hvalid := c.valid
      simp only [UInt32.isValidChar, Nat.isValidChar] at hvalid
      have hn : c.toNat = c.val.toNat := rfl
      omega
    exact ⟨_, List.mem_cons_self, isPrintable_ofNat (by omega) (by omega)⟩

/-- The launchers give the same verdict on every string, as either of them is handed it. -/
theorem launchers_agree :
    (∀ t, PosixLauncher.validImageOverride t = WindowsLauncher.testImageOverride t) ∧
    ∀ s, PosixLauncher.validImageOverride (shellArgument s) =
      WindowsLauncher.testImageOverride (dotNetString s) := by
  refine ⟨imageOverrides_agree, fun s => ?_⟩
  rw [← imageOverrides_agree]
  by_cases h : ∀ c ∈ s.toList, c.toNat < 0x80
  · have he : shellArgument s = dotNetString s :=
      List.flatMap_congr fun c hc => encodings_ascii (h c hc)
    rw [he]
  · simp only [not_forall] at h
    obtain ⟨c, hm, hc⟩ := h
    obtain ⟨d, hd, hp⟩ := exists_unprintable_byte hc
    obtain ⟨e, he, hq⟩ := exists_unprintable_unit hc
    have hd' : d ∈ shellArgument s := List.mem_flatMap.2 ⟨c, hm, hd⟩
    have he' : e ∈ dotNetString s := List.mem_flatMap.2 ⟨c, hm, he⟩
    rw [validImageOverride_unprintable hd' hp, validImageOverride_unprintable he' hq]

end Encodings

end GoalRouter
