import GoalRouter.DomainCodec

namespace GoalRouter
open Library
set_option autoImplicit true

def redacted : Text := text "[REDACTED]"

def secretKeys : List Text :=
  [text "apikey", text "authorization", text "bearer", text "clientsecret", text "openaikey",
   text "openaiapikey", text "password", text "refreshtoken", text "accesstoken", text "secret"]

/-- `re.sub(r"[^a-z0-9]", "", key.casefold())`. -/
def normalizeKey (key : Text) : Text :=
  (casefold key).filter fun c => (97 ≤ c.val && c.val ≤ 122) || (48 ≤ c.val && c.val ≤ 57)

def isSecretKey (key : Text) : Bool := normalizeKey key ∈ secretKeys

def isSecretValue (value : Text) : Bool :=
  ((text "sk-").isPrefixOf value && 6 < value.length) ||
    (text "bearer ").isPrefixOf (casefold value)

def redactText (value : Text) : Text := if isSecretValue value then redacted else value

mutual
/-- `redact_json`. -/
def redactJson : Json → Json
  | .obj fields => .obj (redactFields fields)
  | .arr xs => .arr (redactList xs)
  | .str value => .str (redactText value)
  | .null => .null
  | .bool b => .bool b
  | .int n => .int n
  | .float x => .float x

def redactList : List Json → List Json
  | [] => []
  | x :: xs => redactJson x :: redactList xs

def redactFields : Fields → Fields
  | [] => []
  | (key, item) :: fields =>
    (key, if isSecretKey key then .str redacted else redactJson item) :: redactFields fields
end

/-- A member of an object after redaction. -/
def redactMember (key : Text) (item : Json) : Json :=
  if isSecretKey key then .str redacted else redactJson item

@[simp] theorem redactList_eq_map (xs : List Json) : redactList xs = xs.map redactJson := by
  induction xs with
  | nil => rfl
  | cons x xs ih => rw [redactList, ih, List.map_cons]

@[simp] theorem redactFields_eq_map (fields : Fields) :
    redactFields fields = fields.map fun e => (e.1, redactMember e.1 e.2) := by
  induction fields with
  | nil => rfl
  | cons e fields ih =>
    rw [redactFields, ih, List.map_cons]
    rfl

theorem isSecretValue_redacted : isSecretValue redacted = false := by decide +kernel

@[simp] theorem redactText_redacted : redactText redacted = redacted := by decide +kernel

@[simp] theorem redactText_idem (t : Text) : redactText (redactText t) = redactText t := by
  by_cases h : isSecretValue t = true
  · simp only [redactText, h, ↓reduceIte, isSecretValue_redacted, Bool.false_eq_true]
  · simp only [redactText, h, ↓reduceIte, Bool.false_eq_true]

/-- The text that a string is after it was saved and loaded. -/
def persistText (t : Text) : Text := joinSurrogates (redactText t)

/-- The value that a JSON value is after it was saved and loaded. -/
def persistJson (j : Json) : Json := (redactJson j).reload

theorem isSecretValue_of_join {t : Text} (h : isSecretValue (joinSurrogates t) = true) :
    isSecretValue t = true := by
  have hsk : ∀ c ∈ text "sk-", isAscii c = true := List.all_eq_true.1 (by decide)
  have hb : ∀ c ∈ text "bearer ", isAscii c = true := List.all_eq_true.1 (by decide)
  have hid (u : Text) : u.flatMap (fun c => [c]) = u := List.flatMap_singleton' u
  simp only [isSecretValue, Bool.or_eq_true, Bool.and_eq_true, decide_eq_true_eq,
    List.isPrefixOf_iff_prefix] at h ⊢
  rcases h with ⟨hp, hl⟩ | hp
  · have hj := (prefix_join (fun c => [c]) hsk (fun _ _ => rfl) t).1 (by rwa [hid])
    rw [hid] at hj
    exact .inl ⟨hj, hl.trans_le (length_joinSurrogates_le t)⟩
  · refine .inr ((prefix_join casefoldChar hb (fun c hc => ?_) t).1 hp)
    rcases hc with hc | hc | hc
    · exact casefoldChar_high hc
    · exact casefoldChar_low hc
    · exact casefoldChar_of_le (by omega) (.inr hc)

theorem joined_redacted : joinSurrogates redacted = redacted := by decide

@[simp] theorem persistText_idem (t : Text) : persistText (persistText t) = persistText t := by
  by_cases h : isSecretValue t = true
  · have ht : persistText t = redacted := by
      simp only [persistText, redactText, h, ↓reduceIte, joined_redacted]
    rw [ht, persistText, redactText_redacted, joined_redacted]
  · have ht : persistText t = joinSurrogates t := by
      simp only [persistText, redactText, h, ↓reduceIte, Bool.false_eq_true]
    have hj : ¬isSecretValue (joinSurrogates t) = true := fun hs => h (isSecretValue_of_join hs)
    rw [ht, persistText, redactText, if_neg hj, joinSurrogates_idem]

theorem persistText_of_plain {t : Text} (hs : isSecretValue t = false) (hj : Joined t) :
    persistText t = t := by
  rw [persistText, redactText, hs, if_neg Bool.false_ne_true, hj.joinSurrogates]

/-- An ASCII text other than the mark of redaction is what only the text itself is saved as. -/
theorem eq_of_persistText {t u : Text} (h : persistText t = u) (hu : ∀ c ∈ u, isAscii c = true)
    (hr : u ≠ redacted) : t = u := by
  cases hs : isSecretValue t with
  | true =>
    rw [persistText, redactText, if_pos hs, joined_redacted] at h
    exact absurd h.symm hr
  | false =>
    rw [persistText, redactText, hs, if_neg Bool.false_ne_true] at h
    subst h
    exact (joinSurrogates_of_ascii hu).symm

theorem persistText_eq_iff {t : Text} (hj : Joined t) (hr : t ≠ redacted) :
    persistText t = t ↔ isSecretValue t = false := by
  constructor
  · intro h
    by_contra hs
    rw [Bool.not_eq_false] at hs
    rw [persistText, redactText, if_pos hs, joined_redacted] at h
    exact hr h.symm
  · exact fun hs => persistText_of_plain hs hj

theorem normalizeKey_join (key : Text) : normalizeKey (joinSurrogates key) = normalizeKey key := by
  have hf (t : Text) : normalizeKey t = t.flatMap fun c => (casefoldChar c).filter fun c =>
      (97 ≤ c.val && c.val ≤ 122) || (48 ≤ c.val && c.val ≤ 57) := by
    simp only [normalizeKey, casefold, List.filter_flatMap]
  rw [hf, hf]
  refine filter_ascii_join _ (fun c hc => ?_) key
  have hle : 0xD800 ≤ c.val ∧ (c.val ≤ 0xDFFF ∨ 0x10000 ≤ c.val) := by
    simp only [isHighSurrogate, isLowSurrogate, Bool.and_eq_true, decide_eq_true_eq] at hc
    omega
  rw [casefoldChar_of_le hle.1 hle.2, List.filter_cons_of_neg, List.filter_nil]
  have h1 : ¬c.val ≤ 122 := by omega
  have h2 : ¬c.val ≤ 57 := by omega
  simp [h1, h2]

@[simp] theorem isSecretKey_join (key : Text) :
    isSecretKey (joinSurrogates key) = isSecretKey key := by
  simp only [isSecretKey, normalizeKey_join]

@[simp] theorem persistJson_str (t : Text) : persistJson (.str t) = .str (persistText t) := by
  simp only [persistJson, redactJson, Json.reload, persistText]

@[simp] theorem persistJson_null : persistJson .null = .null := rfl

@[simp] theorem persistJson_bool (b : Bool) : persistJson (.bool b) = .bool b := rfl

@[simp] theorem persistJson_int (n : Int) : persistJson (.int n) = .int n := rfl

@[simp] theorem persistJson_arr (xs : List Json) :
    persistJson (.arr xs) = .arr (xs.map persistJson) := by
  simp only [persistJson, redactJson, redactList_eq_map, Json.reload, Json.reloadList_eq_map,
    List.map_map]
  rfl

def persistMember (key : Text) (item : Json) : Json :=
  if isSecretKey key then .str redacted else persistJson item

def persistFields (fields : Fields) : Fields :=
  Json.reloadKeys (fields.map fun e => (e.1, persistMember e.1 e.2))

@[simp] theorem persistJson_obj (fields : Fields) :
    persistJson (.obj fields) = .obj (persistFields fields) := by
  simp only [persistJson, redactJson, redactFields_eq_map, Json.reload, Json.reloadFields_eq_map,
    List.map_map, persistFields, Json.obj.injEq]
  congr 1
  refine List.map_congr_left fun e _ => ?_
  simp only [Function.comp_apply, redactMember, persistMember]
  split
  · simp only [Json.reload, joined_redacted]
  · rfl

/-- Names of fields that are kept: distinct, without surrogate pairs, and no secret key. -/
def PlainNames (names : List Text) : Prop :=
  names.Nodup ∧ ∀ n ∈ names, joinSurrogates n = n ∧ isSecretKey n = false

instance (names : List Text) : Decidable (PlainNames names) :=
  inferInstanceAs (Decidable (_ ∧ _))

/-- A field of an object with plain names is read back with its own value persisted. -/
theorem lookup_persistFields {fields : Fields} (h : PlainNames (fields.map Prod.fst)) (k : Text) :
    lookup k (persistFields fields) = (lookup k fields).map persistJson := by
  have hm : fields.map (fun e => (e.1, persistMember e.1 e.2)) =
      fields.map fun e => (e.1, persistJson e.2) := by
    refine List.map_congr_left fun e he => ?_
    rw [persistMember, (h.2 e.1 (List.mem_map_of_mem he)).2]
    rfl
  have hk : (fields.map fun e => (e.1, persistJson e.2)).map Prod.fst = fields.map Prod.fst := by
    rw [List.map_map]
    rfl
  rw [persistFields, hm, Json.lookup_reloadKeys (by rw [hk]; exact h.1)
    (by rw [hk]; exact fun n hn => (h.2 n hn).1), lookup_map_snd]

end GoalRouter
