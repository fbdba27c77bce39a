import GoalRouter.Library.Text

namespace Library
set_option autoImplicit true

abbrev comma : CodePoint := 0x2C

abbrev quotationMark : CodePoint := 0x22

abbrev newline : CodePoint := 0x0A

/-- Where the reader of a record is: in a field, with what it has of it. -/
inductive CsvState where
  | plain (field : Text)
  | quoted (field : Text)
  | closed (field : Text)

namespace CsvState

def field : CsvState → Text
  | .plain field | .quoted field | .closed field => field

end CsvState

/-- The fields up to the end of the line. A quotation mark may only open a field, be doubled
within one that it opened, or close it. -/
def readFields : CsvState → Text → Option (List Text)
  | .plain field, [] => some [field]
  | .quoted _, [] => none
  | .closed field, [] => some [field]
  | .plain field, c :: t =>
    if c = comma then (readFields (.plain []) t).map (field :: ·)
    else if c = newline then some [field]
    else if c = quotationMark then if field = [] then readFields (.quoted []) t else none
    else readFields (.plain (field ++ [c])) t
  | .quoted field, c :: t =>
    if c = quotationMark then readFields (.closed field) t
    else readFields (.quoted (field ++ [c])) t
  | .closed field, c :: t =>
    if c = comma then (readFields (.plain []) t).map (field :: ·)
    else if c = newline then some [field]
    else if c = quotationMark then readFields (.quoted (field ++ [c])) t
    else none

/-- The first record of a comma-separated text. -/
def readRecord (t : Text) : Option (List Text) := readFields (.plain []) t

/-- A character that stands for itself in a field. -/
def isFieldChar (c : CodePoint) : Bool := !(c = comma || c = newline || c = quotationMark)

theorem isFieldChar_eq_false (h : isFieldChar c = false) :
    c = comma ∨ c = newline ∨ c = quotationMark := by
  rw [isFieldChar, Bool.not_eq_false', Bool.or_eq_true, Bool.or_eq_true] at h
  simpa only [decide_eq_true_eq, or_assoc] using h

/-- A text of other characters starts with those before the first that is not one. -/
theorem exists_first_special (h : ¬ ∀ c ∈ t, isFieldChar c = true) :
    ∃ w c rest, t = w ++ c :: rest ∧ (∀ d ∈ w, isFieldChar d = true) ∧ isFieldChar c = false := by
  induction t with
  | nil => exact absurd (fun _ hc => absurd hc List.not_mem_nil) h
  | cons d t ih =>
    cases hd : isFieldChar d with
    | false => exact ⟨[], d, t, rfl, fun _ hc => absurd hc List.not_mem_nil, hd⟩
    | true =>
      obtain ⟨w, c, rest, rfl, hw, hc⟩ :=
        ih fun ht => h (List.forall_mem_cons.2 ⟨hd, ht⟩)
      exact ⟨d :: w, c, rest, rfl, List.forall_mem_cons.2 ⟨hd, hw⟩, hc⟩

theorem readFields_plain (h : ∀ c ∈ w, isFieldChar c = true) (field t : Text) :
    readFields (.plain field) (w ++ t) = readFields (.plain (field ++ w)) t := by
  induction w generalizing field with
  | nil => rw [List.append_nil, List.nil_append]
  | cons c w ih =>
    have hc := h c List.mem_cons_self
    simp only [isFieldChar, Bool.not_eq_true', Bool.or_eq_false_iff, decide_eq_false_iff_not] at hc
    rw [List.cons_append, readFields, if_neg hc.1.1, if_neg hc.1.2, if_neg hc.2,
      ih (fun d hd => h d (List.mem_cons_of_mem _ hd)), List.append_assoc, List.singleton_append]

section PlainField

variable {w : Text} (h : ∀ c ∈ w, isFieldChar c = true)
include h

theorem readRecord_end : readRecord w = some [w] := by
  have hp := readFields_plain h [] []
  rw [List.append_nil] at hp
  exact hp

theorem readRecord_comma (t : Text) :
    readRecord (w ++ comma :: t) = (readRecord t).map (w :: ·) := by
  rw [readRecord, readFields_plain h, readFields, if_pos rfl]
  rfl

theorem readRecord_newline (t : Text) : readRecord (w ++ newline :: t) = some [w] := by
  rw [readRecord, readFields_plain h, readFields, if_neg (by decide), if_pos rfl]
  rfl

theorem readRecord_quotationMark (hw : w ≠ []) (t : Text) :
    readRecord (w ++ quotationMark :: t) = none := by
  rw [readRecord, readFields_plain h, readFields, if_neg (by decide), if_neg (by decide),
    if_pos rfl, List.nil_append, if_neg hw]

end PlainField

theorem readFields_unclosed (h : quotationMark ∉ t) (field : Text) :
    readFields (.quoted field) t = none := by
  induction t generalizing field with
  | nil => rfl
  | cons c t ih =>
    have hc : c ≠ quotationMark := fun he => h (he ▸ List.mem_cons_self)
    rw [readFields, if_neg hc]
    exact ih (fun hm => h (List.mem_cons_of_mem _ hm)) _

/-- Some fields no longer than a bound, then those of the rest, if the line gets there. -/
def ReadsWithin (bound : Nat) (rest : Text) (fields : List Text) : Prop :=
  ∃ first last, fields = first ++ last ∧ (∀ field ∈ first, field.length ≤ bound) ∧
    (last = [] ∨ readRecord rest = some last)

theorem ReadsWithin.mono (h : ReadsWithin n rest fields) (hn : n ≤ m) :
    ReadsWithin m rest fields := by
  obtain ⟨first, last, rfl, hb, hl⟩ := h
  exact ⟨first, last, rfl, fun f hf => (hb f hf).trans hn, hl⟩

theorem ReadsWithin.cons (hf : field.length ≤ n) (h : ReadsWithin n rest fields) :
    ReadsWithin n rest (field :: fields) := by
  obtain ⟨first, last, rfl, hb, hl⟩ := h
  exact ⟨field :: first, last, rfl, List.forall_mem_cons.2 ⟨hf, hb⟩, hl⟩

theorem readsWithin_rest (h : readRecord rest = some fields) : ReadsWithin n rest fields :=
  ⟨[], fields, rfl, fun _ hf => absurd hf List.not_mem_nil, .inr h⟩

theorem readsWithin_nil : ReadsWithin n rest [] :=
  ⟨[], [], rfl, fun _ hf => absurd hf List.not_mem_nil, .inl rfl⟩

/-- Before a comma that no quotation mark follows, fields are no longer than the text they are
read from; after it come the fields of the rest. -/
theorem readFields_append (h : quotationMark ∉ rest) {s : CsvState}
    (hr : readFields s (t ++ comma :: rest) = some fields) :
    ReadsWithin (s.field.length + t.length) rest fields := by
  induction t generalizing s fields with
  | nil =>
    rw [List.nil_append] at hr
    cases s with
    | plain field | closed field =>
      rw [readFields, if_pos rfl] at hr
      obtain ⟨fields, hf, rfl⟩ := Option.map_eq_some_iff.1 hr
      exact (readsWithin_rest hf).cons (Nat.le_add_right ..)
    | quoted field =>
      have hq : quotationMark ∉ comma :: rest := by
        rw [List.mem_cons, not_or]
        exact ⟨by decide, h⟩
      rw [readFields_unclosed hq] at hr
      cases hr
  | cons c t ih =>
    rw [List.cons_append] at hr
    have step {s' : CsvState} (hs : s'.field.length ≤ s.field.length + 1)
        (hr : readFields s' (t ++ comma :: rest) = some fields) :
        ReadsWithin (s.field.length + (c :: t).length) rest fields :=
      (ih hr).mono (by rw [List.length_cons]; omega)
    have next (hr : (readFields (.plain []) (t ++ comma :: rest)).map (s.field :: ·) =
        some fields) : ReadsWithin (s.field.length + (c :: t).length) rest fields := by
      obtain ⟨fields, hf, rfl⟩ := Option.map_eq_some_iff.1 hr
      refine ((ih hf).mono ?_).cons (Nat.le_add_right ..)
      simp only [CsvState.field, List.length_nil, List.length_cons]
      omega
    have ended (hr : some [s.field] = some fields) :
        ReadsWithin (s.field.length + (c :: t).length) rest fields := by
      cases hr
      exact readsWithin_nil.cons (Nat.le_add_right ..)
    cases s with
    | plain field =>
      rw [readFields] at hr
      split_ifs at hr
      · exact next hr
      · exact ended hr
      · exact step (Nat.zero_le _) hr
      · exact step (by simp [CsvState.field]) hr
    | quoted field =>
      rw [readFields] at hr
      split_ifs at hr
      · exact step (show (CsvState.closed field).field.length ≤ _ from Nat.le_succ field.length) hr
      · exact step (by simp [CsvState.field]) hr
    | closed field =>
      rw [readFields] at hr
      split_ifs at hr
      · exact next hr
      · exact ended hr
      · exact step (by simp [CsvState.field]) hr

end Library
