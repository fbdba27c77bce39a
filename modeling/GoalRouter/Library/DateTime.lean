import GoalRouter.Library.Text

namespace Library
set_option autoImplicit true

def isLeap (year : Nat) : Bool := year % 4 == 0 && (year % 100 != 0 || year % 400 == 0)

def monthLengths (year : Nat) : List Nat :=
  [31, if isLeap year then 29 else 28, 31, 30, 31, 30, 31, 31, 30, 31, 30, 31]

def yearLength (year : Nat) : Nat := if isLeap year then 366 else 365

def dayMicroseconds : Int := 24 * 60 * 60 * 1000000

def validDateTime (year month day hour minute second microsecond : Nat) (offset : Option Int) :
    Bool :=
  1 ≤ year && year ≤ 9999 && 1 ≤ month && month ≤ 12 && 1 ≤ day &&
    day ≤ ((monthLengths year)[month - 1]?).getD 0 && hour < 24 && minute < 60 && second < 60 &&
    microsecond < 1000000 &&
    match offset with
    | none => true
    | some o => -dayMicroseconds < o && o < dayMicroseconds

/-- A `datetime` as `isoformat` shows it: the wall clock and the offset from UTC in microseconds, of
which a naive one has none. What its zone says for the other value of `fold` is not part of it. -/
structure DateTime where
  year : Nat
  month : Nat
  day : Nat
  hour : Nat
  minute : Nat
  second : Nat
  microsecond : Nat
  offset : Option Int
  valid : validDateTime year month day hour minute second microsecond offset = true
  deriving DecidableEq

namespace DateTime

def digit (n : Nat) : CodePoint := Fin.ofNat 0x110000 (48 + n % 10)

def isDigit (c : CodePoint) : Bool := 48 ≤ c.val && c.val ≤ 57

def twoDigits (n : Nat) : Text := [digit (n / 10), digit n]

def sixDigits (n : Nat) : Text :=
  [digit (n / 100000), digit (n / 10000), digit (n / 1000), digit (n / 100), digit (n / 10),
    digit n]

abbrev dash : CodePoint := 0x2D
abbrev colon : CodePoint := 0x3A
abbrev point : CodePoint := 0x2E

def fractionText (microsecond : Nat) : Text :=
  if microsecond = 0 then [] else point :: sixDigits microsecond

/-- `+HH:MM[:SS[.ffffff]]`. -/
def offsetText (offset : Int) : Text :=
  let n := offset.natAbs
  let clock := twoDigits (n / 3600000000) ++ colon :: twoDigits (n / 60000000 % 60)
  (if offset < 0 then dash else 0x2B) :: clock ++
    if n % 60000000 = 0 then []
    else colon :: twoDigits (n / 1000000 % 60) ++ fractionText (n % 1000000)

def isoformat (d : DateTime) : Text :=
  twoDigits (d.year / 100) ++ twoDigits d.year ++ dash :: twoDigits d.month ++ dash ::
    twoDigits d.day ++ 0x54 :: twoDigits d.hour ++ colon :: twoDigits d.minute ++ colon ::
    twoDigits d.second ++ fractionText d.microsecond ++
    match d.offset with
    | none => []
    | some o => offsetText o

def digitsValue : Text → Option Nat
  | [] => some 0
  | t =>
    t.foldl (fun n c => n.bind fun n => if isDigit c then some (n * 10 + (c.val - 48)) else none)
      (some 0)

/-- The number of `n` leading digits, and the rest. -/
def leading (n : Nat) (t : Text) : Option (Nat × Text) :=
  if (t.take n).length = n then (digitsValue (t.take n)).map (·, t.drop n) else none

/-- The fraction of a second in microseconds, digits past the sixth cut off. -/
def parseFraction : Text → Option Nat
  | [] => some 0
  | c :: t =>
    if (c == point || c == 0x2C) && t != [] && t.all isDigit then
      digitsValue ((t ++ List.replicate 6 0x30).take 6)
    else none

/-- `HH[:MM[:SS[.ffffff]]]`, with or without the colons. -/
def parseClock (t : Text) : Option (Nat × Nat × Nat × Nat) :=
  (leading 2 t).bind fun (hour, t) =>
    if t = [] then some (hour, 0, 0, 0)
    else
      let separated := t.head? == some colon
      (leading 2 (if separated then t.tail else t)).bind fun (minute, t) =>
        if t = [] then some (hour, minute, 0, 0)
        else if separated && t.head? != some colon then none
        else
          (leading 2 (if separated then t.tail else t)).bind fun (second, t) =>
            (parseFraction t).map fun microsecond => (hour, minute, second, microsecond)

/-- The days from 1 January of an ISO year to the Monday of its first week. -/
def firstMonday (year : Nat) : Int :=
  let before := year - 1
  let weekday := (before * 365 + before / 4 - before / 100 + before / 400) % 7
  if weekday ≤ 3 then -(weekday : Int) else 7 - weekday

def monthDay : Nat → List Nat → Nat → Nat × Nat
  | month, [], day => (month, day)
  | month, length :: rest, day =>
    if day < length then (month, day + 1) else monthDay (month + 1) rest (day - length)

/-- The calendar date of a day of an ISO week. -/
def isoWeekDate (year week day : Nat) : Option (Nat × Nat × Nat) :=
  let n := firstMonday year + 7 * ((week : Int) - 1) + (day - 1)
  let longYear := firstMonday year + 364 ≤ yearLength year - 4
  if 1 ≤ year ∧ 1 ≤ week ∧ (week ≤ 52 ∨ week = 53 ∧ longYear) ∧ 1 ≤ day ∧ day ≤ 7 then
    if n < 0 then
      some (year - 1, monthDay 1 (monthLengths (year - 1)) (n + yearLength (year - 1)).toNat)
    else if n < yearLength year then some (year, monthDay 1 (monthLengths year) n.toNat)
    else some (year + 1, monthDay 1 (monthLengths (year + 1)) (n - yearLength year).toNat)
  else none

def parseDate (t : Text) : Option (Nat × Nat × Nat) :=
  (leading 4 t).bind fun (year, t) =>
    let separated := t.head? == some dash
    let t := if separated then t.tail else t
    if t.head? == some 0x57 then
      (leading 2 t.tail).bind fun (week, t) =>
        if t = [] then isoWeekDate year week 1
        else if (t.head? == some dash) != separated then none
        else (leading 1 (if separated then t.tail else t)).bind fun (day, t) =>
          if t = [] then isoWeekDate year week day else none
    else
      (leading 2 t).bind fun (month, t) =>
        if (t.head? == some dash) != separated then none
        else (leading 2 (if separated then t.tail else t)).bind fun (day, t) =>
          if t = [] then some (year, month, day) else none

/-- Where the date ends and the separator stands. -/
def separatorLocation (t : Text) : Nat :=
  if t.length = 7 then 7
  else if t[4]? = some dash then
    if t[5]? = some 0x57 then
      if t[8]? = some dash then if ((t[10]?).map isDigit).getD false then 8 else 10 else 8
    else 10
  else if t[4]? = some 0x57 then
    let i := 7 + ((t.drop 7).takeWhile isDigit).length
    if i < 9 then i else if i % 2 = 0 then 7 else 8
  else 8

def isZone (c : CodePoint) : Bool := c == dash || c == 0x2B || c == 0x5A

/-- The offset written after the clock; `none` inside for a naive time. -/
def parseZone : Text → Option (Option Int)
  | [] => some none
  | c :: t =>
    if c == 0x5A then if t = [] then some (some 0) else none
    else if t.length ∈ [0, 1, 3] then none
    else (parseClock t).map fun (hour, minute, second, microsecond) =>
      let n : Int := ((hour * 60 + minute) * 60 + second) * 1000000 + microsecond
      some (if c == dash then -n else n)

/-- `datetime.fromisoformat`, `none` where it raises `ValueError`. -/
def fromIsoformat (t : Text) : Option DateTime :=
  if t.length < 7 then none
  else
    let location := separatorLocation t
    let clock := t.drop (location + 1)
    (parseDate (t.take location)).bind fun (year, month, day) =>
      (if clock = [] then some ((0, 0, 0, 0), none) else
        (parseClock (clock.takeWhile fun c => !isZone c)).bind fun time =>
          (parseZone (clock.dropWhile fun c => !isZone c)).map fun offset => (time, offset)).bind
        fun ((hour, minute, second, microsecond), offset) =>
          if h : validDateTime year month day hour minute second microsecond offset = true then
            some ⟨year, month, day, hour, minute, second, microsecond, offset, h⟩
          else none

theorem digit_val (n : Nat) : (digit n).val = 48 + n % 10 := by
  simp only [digit, Fin.ofNat]
  omega

theorem isDigit_digit (n : Nat) : isDigit (digit n) = true := by
  simp only [isDigit, digit_val, Bool.and_eq_true, decide_eq_true_eq]
  omega

theorem digitsValue_append (t : Text) (n k : Nat) (h : digitsValue t = some k) :
    digitsValue (t ++ [digit n]) = some (k * 10 + n % 10) := by
  have hfold (t : Text) : digitsValue t = t.foldl (fun n c =>
      n.bind fun n => if isDigit c then some (n * 10 + (c.val - 48)) else none) (some 0) := by
    cases t <;> rfl
  rw [hfold, List.foldl_append, ← hfold, h]
  simp only [List.foldl_cons, List.foldl_nil, Option.bind_some, isDigit_digit, ↓reduceIte,
    digit_val]
  congr 2
  omega

theorem digitsValue_two (n : Nat) : digitsValue (twoDigits n) = some (n % 100) := by
  have h1 := digitsValue_append [] (n / 10) 0 rfl
  have h2 := digitsValue_append _ n _ h1
  refine h2.trans (congrArg some ?_)
  omega

theorem leading_two (n : Nat) (t : Text) : leading 2 (twoDigits n ++ t) = some (n % 100, t) := by
  have h := digitsValue_two n
  simp only [leading, twoDigits, List.cons_append, List.nil_append, List.take_succ_cons,
    List.take_zero, List.drop_succ_cons, List.drop_zero] at h ⊢
  simp only [List.length_cons, List.length_nil, Nat.reduceAdd, ↓reduceIte, h, Option.map_some]

theorem leading_four (n : Nat) (t : Text) :
    leading 4 (twoDigits (n / 100) ++ (twoDigits n ++ t)) = some (n % 10000, t) := by
  have h2 := digitsValue_two (n / 100)
  have h3 := digitsValue_append _ (n / 10) _ h2
  have h4 := digitsValue_append _ n _ h3
  simp only [leading, twoDigits, List.cons_append, List.nil_append, List.take_succ_cons,
    List.take_zero, List.drop_succ_cons, List.drop_zero] at h4 ⊢
  simp only [List.length_cons, List.length_nil, Nat.reduceAdd, ↓reduceIte, h4, Option.map_some,
    Option.some.injEq, Prod.mk.injEq, and_true]
  omega

theorem parseFraction_text {n : Nat} (h : n < 1000000) :
    parseFraction (fractionText n) = some n := by
  unfold fractionText
  split
  · rename_i hn
    rw [hn, parseFraction]
  · have h1 := digitsValue_append [] (n / 100000) 0 rfl
    have h2 := digitsValue_append _ (n / 10000) _ h1
    have h3 := digitsValue_append _ (n / 1000) _ h2
    have h4 := digitsValue_append _ (n / 100) _ h3
    have h5 := digitsValue_append _ (n / 10) _ h4
    have h6 := digitsValue_append _ n _ h5
    have hd : (sixDigits n).all isDigit = true := by simp [sixDigits, isDigit_digit]
    have ht : (sixDigits n ++ List.replicate 6 0x30).take 6 = sixDigits n := rfl
    rw [parseFraction, hd, ht]
    refine Eq.trans ?_ (h6.trans (congrArg some ?_))
    · rfl
    · omega

theorem digit_ne {n : Nat} {c : CodePoint} (h : isDigit c = false) : digit n ≠ c := by
  intro he
  rw [← he, isDigit_digit] at h
  cases h

theorem head_twoDigits (n : Nat) (t : Text) {c : CodePoint} (h : isDigit c = false) :
    ((twoDigits n ++ t).head? == some c) = false := by
  simp [twoDigits, digit_ne h]

theorem parseClock_minutes {hour minute : Nat} (hh : hour < 100) (hm : minute < 100) :
    parseClock (twoDigits hour ++ colon :: twoDigits minute) = some (hour, minute, 0, 0) := by
  have hl := leading_two minute []
  rw [List.append_nil] at hl
  rw [parseClock, leading_two]
  simp only [List.head?_cons, BEq.rfl, ↓reduceIte, List.tail_cons, hl, Option.bind_some,
    reduceCtorEq]
  rw [Nat.mod_eq_of_lt hh, Nat.mod_eq_of_lt hm]

theorem parseClock_seconds {hour minute second microsecond : Nat} (hh : hour < 100)
    (hm : minute < 100) (hs : second < 100) (hu : microsecond < 1000000) :
    parseClock (twoDigits hour ++ colon :: (twoDigits minute ++ colon ::
      (twoDigits second ++ fractionText microsecond))) =
        some (hour, minute, second, microsecond) := by
  rw [parseClock, leading_two]
  simp only [List.head?_cons, BEq.rfl, ↓reduceIte, List.tail_cons, leading_two, Option.bind_some,
    bne_self_eq_false, Bool.and_false, Bool.false_eq_true, reduceCtorEq, parseFraction_text hu,
    Option.map_some]
  rw [Nat.mod_eq_of_lt hh, Nat.mod_eq_of_lt hm, Nat.mod_eq_of_lt hs]

theorem parseZone_offsetText {o : Int} (h : o.natAbs < 24 * 60 * 60 * 1000000) :
    parseZone (offsetText o) = some (some o) := by
  have hh : o.natAbs / 3600000000 < 100 := by omega
  have hm : o.natAbs / 60000000 % 60 < 100 := by omega
  have hs : o.natAbs / 1000000 % 60 < 100 := by omega
  have hu : o.natAbs % 1000000 < 1000000 := by omega
  have hc : parseClock (twoDigits (o.natAbs / 3600000000) ++ colon ::
      twoDigits (o.natAbs / 60000000 % 60) ++ if o.natAbs % 60000000 = 0 then [] else
        colon :: twoDigits (o.natAbs / 1000000 % 60) ++ fractionText (o.natAbs % 1000000)) =
      some (o.natAbs / 3600000000, o.natAbs / 60000000 % 60, o.natAbs / 1000000 % 60,
        o.natAbs % 1000000) := by
    split
    · rw [List.append_nil, parseClock_minutes hh hm]
      congr 4 <;> omega
    · simp only [List.append_assoc, List.cons_append]
      exact parseClock_seconds hh hm hs hu
  simp only [offsetText, parseZone, List.append_assoc, List.cons_append] at hc ⊢
  have hlen (rest : Text) : (twoDigits (o.natAbs / 3600000000) ++ colon ::
      (twoDigits (o.natAbs / 60000000 % 60) ++ rest)).length ∉ [0, 1, 3] := by
    simp [twoDigits]
  have hz : ((if o < 0 then dash else 0x2B) == (0x5A : CodePoint)) = false := by split <;> rfl
  rw [hc, hz, if_neg Bool.false_ne_true, if_neg (hlen _), Option.map_some]
  by_cases hneg : o < 0
  · rw [if_pos hneg, if_pos BEq.rfl]
    congr 2
    dsimp only
    omega
  · rw [if_neg hneg, if_neg (by decide)]
    congr 2
    dsimp only
    omega

theorem dropWhile_clock {t z : Text} (ht : ∀ c ∈ t, isZone c = false)
    (hz : ∀ c, z.head? = some c → isZone c = true) :
    ((t ++ z).takeWhile fun c => !isZone c) = t ∧ ((t ++ z).dropWhile fun c => !isZone c) = z := by
  induction t with
  | nil =>
    cases z with
    | nil => exact ⟨rfl, rfl⟩
    | cons c z => simp [hz c rfl]
  | cons c t ih =>
    obtain ⟨h1, h2⟩ := ih fun d hd => ht d (List.mem_cons_of_mem _ hd)
    simp [ht c List.mem_cons_self, h1, h2]

theorem parseDate_text {year month day : Nat} (hy : year < 10000) (hm : month < 100)
    (hd : day < 100) :
    parseDate (twoDigits (year / 100) ++ (twoDigits year ++ dash :: (twoDigits month ++ dash ::
      twoDigits day))) = some (year, month, day) := by
  have hl := leading_two day []
  have hw : ((twoDigits month ++ dash :: twoDigits day).head? == some 0x57) = false :=
    head_twoDigits _ _ (by decide)
  rw [List.append_nil] at hl
  rw [parseDate, leading_four]
  simp only [List.head?_cons, BEq.rfl, ↓reduceIte, List.tail_cons, leading_two, Option.bind_some,
    hw, hl, Bool.false_eq_true, bne_self_eq_false]
  rw [Nat.mod_eq_of_lt hy, Nat.mod_eq_of_lt hm, Nat.mod_eq_of_lt hd]

def clockText (d : DateTime) : Text :=
  twoDigits d.hour ++ colon :: (twoDigits d.minute ++ colon :: (twoDigits d.second ++
    fractionText d.microsecond))

def zoneText : Option Int → Text
  | none => []
  | some o => offsetText o

theorem clockText_no_zone (d : DateTime) : ∀ c ∈ clockText d, isZone c = false := by
  have hz (n : Nat) : isZone (digit n) = false := by
    have h1 : digit n ≠ dash := digit_ne (by decide)
    have h2 : digit n ≠ 0x2B := digit_ne (by decide)
    have h3 : digit n ≠ 0x5A := digit_ne (by decide)
    simp [isZone, h1, h2, h3]
  have hf : ∀ c ∈ fractionText d.microsecond, isZone c = false := by
    unfold fractionText
    split
    · exact fun c hc => absurd hc List.not_mem_nil
    · simp only [sixDigits, List.forall_mem_cons, hz, List.not_mem_nil, false_implies,
        implies_true, and_self, and_true]
      decide
  simp only [clockText, twoDigits, List.cons_append, List.nil_append, List.forall_mem_cons, hz]
  refine ⟨trivial, trivial, by decide, trivial, trivial, by decide, trivial, trivial, hf⟩

theorem fromIsoformat_isoformat (d : DateTime) : fromIsoformat d.isoformat = some d := by
  have hv := d.valid
  simp only [validDateTime, Bool.and_eq_true, decide_eq_true_eq] at hv
  obtain ⟨⟨⟨⟨⟨⟨⟨⟨⟨⟨_, hy⟩, _⟩, hmo⟩, _⟩, hd⟩, hh⟩, hm⟩, hs⟩, hu⟩, ho⟩ := hv
  have hdate := parseDate_text (show d.year < 10000 by omega) (show d.month < 100 by omega)
    (show d.day < 100 by
      have hl : ((monthLengths d.year)[d.month - 1]?).getD 0 ≤ 31 := by
        cases hg : (monthLengths d.year)[d.month - 1]? with
        | none => exact Nat.zero_le _
        | some n =>
          have hn := List.mem_of_getElem? hg
          simp only [monthLengths, List.mem_cons, List.not_mem_nil, or_false] at hn
          rw [Option.getD_some]
          split at hn <;> omega
      omega)
  have hclock : parseClock (clockText d) = some (d.hour, d.minute, d.second, d.microsecond) :=
    parseClock_seconds (by omega) (by omega) (by omega) hu
  have hzone : parseZone (zoneText d.offset) = some d.offset := by
    cases hoff : d.offset with
    | none => rfl
    | some o =>
      rw [hoff] at ho
      have ho' := (Bool.and_eq_true_iff.1 ho).imp of_decide_eq_true of_decide_eq_true
      simp only [dayMicroseconds] at ho'
      exact parseZone_offsetText (by omega)
  have hhead : ∀ c, (zoneText d.offset).head? = some c → isZone c = true := by
    intro c hc
    cases hoff : d.offset with
    | none =>
      rw [hoff] at hc
      cases hc
    | some o =>
      rw [hoff] at hc
      cases hc
      split <;> rfl
  obtain ⟨htake, hdrop⟩ := dropWhile_clock (clockText_no_zone d) hhead
  have hiso : d.isoformat = twoDigits (d.year / 100) ++ (twoDigits d.year ++ dash ::
      (twoDigits d.month ++
        dash :: (twoDigits d.day ++ 0x54 :: (clockText d ++ zoneText d.offset)))) := by
    simp only [isoformat, clockText, zoneText, List.append_assoc, List.cons_append]
  have hsep : separatorLocation d.isoformat = 10 := by
    have hw : digit (d.month / 10) ≠ 0x57 := digit_ne (by decide)
    rw [hiso, separatorLocation]
    simp [twoDigits, hw]
  have hlen : ¬d.isoformat.length < 7 := by
    rw [hiso]
    simp [twoDigits]
  have hd10 : d.isoformat.take 10 = twoDigits (d.year / 100) ++ (twoDigits d.year ++ dash ::
      (twoDigits d.month ++ dash :: twoDigits d.day)) := by
    rw [hiso]
    rfl
  have hd11 : d.isoformat.drop (10 + 1) = clockText d ++ zoneText d.offset := by
    rw [hiso]
    rfl
  have hne : clockText d ++ zoneText d.offset ≠ [] := List.cons_ne_nil _ _
  rw [fromIsoformat, if_neg hlen, hsep]
  simp only [hd10, hd11, hdate, Option.bind_some, if_neg hne, htake, hdrop, hclock, hzone,
    Option.map_some, d.valid, ↓reduceDIte]

theorem isoformat_cons (d : DateTime) : ∃ n t, d.isoformat = digit n :: t := ⟨_, _, rfl⟩

theorem isAscii_digit (n : Nat) : isAscii (digit n) = true := by
  simp only [isAscii, digit_val, decide_eq_true_eq]
  omega

theorem isAscii_twoDigits (n : Nat) : (twoDigits n).all isAscii = true := by
  simp [twoDigits, isAscii_digit]

theorem isAscii_fractionText (n : Nat) : (fractionText n).all isAscii = true := by
  unfold fractionText
  split
  · rfl
  · have hp : isAscii point = true := by decide
    simp [sixDigits, isAscii_digit, hp]

theorem isAscii_isoformat (d : DateTime) : d.isoformat.all isAscii = true := by
  have hd : isAscii dash = true := by decide
  have hc : isAscii colon = true := by decide
  have ht : isAscii 0x54 = true := by decide
  have hp : isAscii 0x2B = true := by decide
  have ho (o : Int) : (offsetText o).all isAscii = true := by
    simp only [offsetText]
    split <;> split <;>
      simp only [List.cons_append, List.all_cons, List.all_append, isAscii_twoDigits,
        isAscii_fractionText, hd, hc, hp, List.append_nil, Bool.and_self]
  unfold isoformat
  split <;>
    simp only [List.append_assoc, List.cons_append, List.all_cons, List.all_append,
      isAscii_twoDigits, isAscii_fractionText, hd, hc, ht, ho, List.append_nil, Bool.and_self]

/-- The days up to a date, from the first of January of the year 1. -/
def ordinal (d : DateTime) : Nat :=
  ((List.range (d.year - 1)).map fun n => yearLength (n + 1)).foldl (· + ·) 0 +
    ((monthLengths d.year).take (d.month - 1)).foldl (· + ·) 0 + d.day

/-- The microseconds that the wall clock shows. -/
def clock (d : DateTime) : Int :=
  (((d.ordinal * 24 + d.hour) * 60 + d.minute) * 60 + d.second : Nat) * 1000000 + d.microsecond

/-- Python's `==` of times of different zones, where the first has the given offset under the other
value of its `fold`: a time whose offset depends on `fold` equals none. -/
def Equals (d : DateTime) (flipped : Option Int) (d' : DateTime) : Prop :=
  d.offset = flipped ∧ d.offset.isSome = d'.offset.isSome ∧
    d.clock - d.offset.getD 0 = d'.clock - d'.offset.getD 0

theorem equals_self {d : DateTime} {flipped : Option Int} (h : d.offset = flipped) :
    d.Equals flipped d :=
  ⟨h, rfl, rfl⟩

end DateTime

end Library
