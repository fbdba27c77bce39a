import GoalRouter.Redaction
import GoalRouter.Library.JsonCopy

namespace GoalRouter
open Library
set_option autoImplicit true

/-- A step that does not enter a member under a secret key. -/
def IsPlainStep : Json.Step → Prop
  | .member key => isSecretKey key = false
  | .element _ => True

/-- What redaction makes of the value that a step enters. -/
def redactStep : Json.Step → Json → Json
  | .member key => redactMember key
  | .element _ => redactJson

theorem lookup_redactFields (key : Text) (fields : Fields) :
    lookup key (redactFields fields) = (lookup key fields).map (redactMember key) := by
  induction fields with
  | nil => rfl
  | cons e fields ih =>
    obtain ⟨key', item⟩ := e
    rw [redactFields, lookup_cons, lookup_cons, ih]
    split
    · rename_i he
      rw [he]
      rfl
    · rfl

theorem redactJson_enter (j : Json) (s : Json.Step) :
    (redactJson j).enter s = (j.enter s).map (redactStep s) := by
  cases s with
  | member key =>
    cases j with
    | obj fields => exact lookup_redactFields key fields
    | _ => rfl
  | element index =>
    cases j with
    | arr xs =>
      rw [redactJson, redactList_eq_map]
      exact List.getElem?_map
    | _ => rfl

theorem redactStep_plain (h : IsPlainStep s) (j : Json) : redactStep s j = redactJson j := by
  cases s with
  | member key =>
    have hk : ¬isSecretKey key = true := by simpa [IsPlainStep] using h
    exact if_neg hk
  | element => rfl

theorem redactStep_eq (s : Json.Step) (j : Json) :
    redactStep s j = redactJson j ∨ redactStep s j = .str redacted := by
  cases s with
  | member key =>
    cases hk : isSecretKey key with
    | true => exact .inr (if_pos hk)
    | false => exact .inl (redactStep_plain (s := .member key) hk j)
  | element => exact .inl rfl

/-- Where no secret key is passed, redaction of the whole is redaction of the part. -/
theorem redactJson_reach {p : List Json.Step} (h : ∀ s ∈ p, IsPlainStep s) (j : Json) :
    (redactJson j).reach p = (j.reach p).map redactJson := by
  induction p generalizing j with
  | nil => rfl
  | cons s p ih =>
    obtain ⟨hs, hp⟩ := List.forall_mem_cons.1 h
    rw [Json.reach, Json.reach, redactJson_enter]
    cases j.enter s with
    | none => rfl
    | some i =>
      rw [Option.map_some, Option.bind_some, Option.bind_some, redactStep_plain hs]
      exact ih hp i

/-- Whatever is found in a redacted value is a redacted part, or the mark of redaction. -/
theorem reach_redactJson {p : List Json.Step} {j v : Json} (h : (redactJson j).reach p = some v) :
    (∃ u, v = redactJson u) ∨ v = .str redacted := by
  induction p generalizing j with
  | nil =>
    cases h
    exact .inl ⟨j, rfl⟩
  | cons s p ih =>
    obtain ⟨i, hi, hv⟩ := Json.reach_cons_eq_some.1 h
    rw [redactJson_enter] at hi
    obtain ⟨u, _, rfl⟩ := Option.map_eq_some_iff.1 hi
    rcases redactStep_eq s u with he | he
    · rw [he] at hv
      exact ih hv
    · rw [he] at hv
      cases p with
      | nil =>
        cases hv
        exact .inr rfl
      | cons s' p =>
        rw [Json.reach_leaf rfl] at hv
        cases hv

theorem redactMember_secret (h : isSecretKey key = true) (item : Json) :
    redactMember key item = .str redacted :=
  if_pos h

/-- The members of a redacted object under secret keys show nothing. -/
theorem redactJson_secret {j : Json} {fields : Fields} (h : redactJson j = .obj fields)
    (he : e ∈ fields) (hk : isSecretKey e.1 = true) : e.2 = .str redacted := by
  cases j with
  | obj members =>
    rw [redactJson, redactFields_eq_map] at h
    cases h
    obtain ⟨d, _, rfl⟩ := List.mem_map.1 he
    exact redactMember_secret hk d.2
  | _ => cases h

theorem isSecretValue_redactText (t : Text) : isSecretValue (redactText t) = false := by
  cases h : isSecretValue t with
  | true => rw [redactText, if_pos h, isSecretValue_redacted]
  | false => rw [redactText, h, if_neg Bool.false_ne_true, h]

theorem redactJson_str {j : Json} (h : redactJson j = .str t) : isSecretValue t = false := by
  cases j with
  | str u =>
    cases h
    exact isSecretValue_redactText u
  | _ => cases h

/-- A leaf that is not shaped like a secret. -/
def IsPlainLeaf (j : Json) : Prop :=
  j.isLeaf = true ∧ ∀ t, j = .str t → isSecretValue t = false

theorem redactJson_leaf {j : Json} (h : IsPlainLeaf j) : redactJson j = j := by
  cases j with
  | obj => cases h.1
  | arr => cases h.1
  | str t => rw [redactJson, redactText, h.2 t rfl, if_neg Bool.false_ne_true]
  | _ => rfl

theorem redactJson_idem (j : Json) : redactJson (redactJson j) = redactJson j := by
  induction j using Json.induct with
  | str t => rw [redactJson, redactJson, redactText_idem]
  | arr xs ih =>
    simp only [redactJson, redactList_eq_map, List.map_map]
    exact congrArg _ (List.map_congr_left ih)
  | obj fields ih =>
    simp only [redactJson, redactFields_eq_map, List.map_map]
    refine congrArg _ (List.map_congr_left fun e he => ?_)
    rw [Function.comp_apply, redactMember, redactMember]
    split
    · rfl
    · rw [ih e he]
  | _ => rfl

/-- Both are objects with the same keys, arrays of the same length, or leaves. -/
def SameShape : Json → Json → Prop
  | .obj fields, .obj fields' => fields'.map Prod.fst = fields.map Prod.fst
  | .arr xs, .arr xs' => xs'.length = xs.length
  | j, j' => j.isLeaf = true ∧ j'.isLeaf = true

theorem redactJson_sameShape (j : Json) : SameShape j (redactJson j) := by
  cases j with
  | obj fields =>
    rw [redactJson, redactFields_eq_map]
    simp only [SameShape, List.map_map]
    rfl
  | arr xs =>
    rw [redactJson, redactList_eq_map]
    exact List.length_map _
  | _ => exact ⟨rfl, rfl⟩

/-- Redaction has kept the shape of a value outside its secret members, left nothing secret at any
depth, and changed no other leaf. -/
structure Redacts (j v : Json) : Prop where
  shape : ∀ p : List Json.Step, (∀ s ∈ p, IsPlainStep s) →
    Option.Rel SameShape (j.reach p) (v.reach p)
  kept : ∀ p : List Json.Step, (∀ s ∈ p, IsPlainStep s) → ∀ leaf, j.reach p = some leaf →
    IsPlainLeaf leaf → v.reach p = some leaf
  members : ∀ p fields, v.reach p = some (.obj fields) →
    ∀ e ∈ fields, isSecretKey e.1 = true → e.2 = .str redacted
  texts : ∀ p t, v.reach p = some (.str t) → isSecretValue t = false

theorem redactJson_redacts (j : Json) : Redacts j (redactJson j) where
  shape p hp := by
    rw [redactJson_reach hp]
    cases j.reach p with
    | none => exact .none
    | some v => exact .some (redactJson_sameShape v)
  kept p hp leaf h hl := by rw [redactJson_reach hp, h, Option.map_some, redactJson_leaf hl]
  members p fields h e he hk := by
    rcases reach_redactJson h with ⟨u, hu⟩ | hv
    · exact redactJson_secret hu.symm he hk
    · cases hv
  texts p t h := by
    rcases reach_redactJson h with ⟨u, hu⟩ | hv
    · exact redactJson_str hu.symm
    · cases hv
      exact isSecretValue_redacted

/-- `redact_json`, whose calls of `re.sub` on the keys of an object open so many calls. -/
def redaction (keyCalls : Nat) : Json.Copy where
  leaf
    | .str value => .str (redactText value)
    | j => j
  replaced key := if isSecretKey key then some (.str redacted) else none
  keyCalls keys := if keys = [] then 0 else keyCalls

/-- `redact_json` where so many calls are left of the recursion limit. -/
def redactJsonWithin (keyCalls room : Nat) (j : Json) : Except PyError Json :=
  match (redaction keyCalls).within j room with
  | some v => .ok v
  | none => .error recursionError

theorem redaction_apply (keyCalls : Nat) (j : Json) :
    (redaction keyCalls).apply j = redactJson j := by
  induction j using Json.induct with
  | arr xs ih =>
    rw [Json.Copy.apply, Json.Copy.applyList_eq_map, redactJson, redactList_eq_map]
    exact congrArg _ (List.map_congr_left ih)
  | obj fields ih =>
    rw [Json.Copy.apply, Json.Copy.applyFields_eq_map, redactJson, redactFields_eq_map]
    refine congrArg _ (List.map_congr_left fun e he => ?_)
    have hm : ((redaction keyCalls).replaced e.1).getD (redactJson e.2) = redactMember e.1 e.2 := by
      simp only [redaction, redactMember]
      split <;> rfl
    rw [ih e he, hm]
  | _ => rfl

theorem redactJsonWithin_eq (keyCalls room : Nat) (j : Json) :
    redactJsonWithin keyCalls room j =
      if (redaction keyCalls).depth j ≤ room then .ok (redactJson j)
      else .error recursionError := by
  rw [redactJsonWithin, Json.Copy.within_eq, redaction_apply]
  by_cases hd : (redaction keyCalls).depth j ≤ room <;> simp only [hd, ↓reduceIte]

theorem redaction_depth (keyCalls : Nat) (j : Json) :
    (redaction keyCalls).depth (redactJson j) = (redaction keyCalls).depth j := by
  rw [← redaction_apply keyCalls]
  apply Json.Copy.depth_apply
  intro j hj
  cases j with
  | arr => cases hj
  | obj => cases hj
  | _ => rfl

/-- Redaction ends where the value is not too deep, has then redacted it, and does nothing when it
is done a second time. -/
theorem redactJsonWithin_redacts (keyCalls room : Nat) (j : Json) :
    ((∃ v, redactJsonWithin keyCalls room j = .ok v) ↔ (redaction keyCalls).depth j ≤ room) ∧
      ∀ v, redactJsonWithin keyCalls room j = .ok v →
        Redacts j v ∧ redactJsonWithin keyCalls room v = .ok v := by
  rw [redactJsonWithin_eq]
  by_cases hd : (redaction keyCalls).depth j ≤ room
  · rw [if_pos hd]
    refine ⟨iff_of_true ⟨_, rfl⟩ hd, fun v hv => ?_⟩
    cases hv
    refine ⟨redactJson_redacts j, ?_⟩
    rw [redactJsonWithin_eq, redaction_depth, if_pos hd, redactJson_idem]
  · rw [if_neg hd]
    exact ⟨iff_of_false (fun ⟨_, h⟩ => by cases h) hd, fun v hv => by cases hv⟩

/-- A list nested a thousand times takes more calls than the recursion limit allows. -/
theorem nested_list_not_redacted :
    ¬∀ j : Json, ∃ v, redactJsonWithin 2 1000 j = .ok v := by
  intro h
  have hd := (redactJsonWithin_redacts 2 1000 (Json.Copy.nested 1000)).1.1 (h _)
  rw [Json.Copy.depth_nested] at hd
  omega

end GoalRouter
