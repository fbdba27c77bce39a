import GoalRouter.Library.SortedMap
import GoalRouter.Library.Text
import Mathlib.Algebra.Group.Nat.Defs
import Mathlib.Algebra.Group.Int.Defs

namespace Library
set_option autoImplicit true

/-- A Python float by its IEEE 754 double-precision bits. -/
abbrev PyFloat := BitVec 64

namespace PyFloat

def magnitude (x : PyFloat) : Nat := x.toNat % 2 ^ 63

def isNaN (x : PyFloat) : Bool := 0x7FF0000000000000 < magnitude x

def nan : PyFloat := 0x7FF8000000000000#64

@[simp] theorem isNaN_nan : isNaN nan = true := by decide

def zero : PyFloat := 0#64

def one : PyFloat := 0x3FF0000000000000#64

/-- The place of a number on the line; both zeros share one. -/
def rank (x : PyFloat) : Int :=
  if x.toNat < 2 ^ 63 then magnitude x else -(magnitude x : Int)

def lt (x y : PyFloat) : Bool := !isNaN x && !isNaN y && rank x < rank y

/-- `float.is_integer`. -/
def isInteger (x : PyFloat) : Bool :=
  let e := magnitude x / 2 ^ 52
  magnitude x == 0 || (1075 ≤ e && e < 2047) ||
    (1023 ≤ e && e < 1075 && magnitude x % 2 ^ (1075 - e) == 0)

/-- `float(n)`, rounding to nearest even; `none` where Python raises `OverflowError`. -/
def ofInt (n : Int) : Option PyFloat :=
  let a := n.natAbs
  let sign := if n < 0 then 2 ^ 63 else 0
  let e := a.log2
  if a = 0 then some zero
  else if e ≤ 52 then some (BitVec.ofNat 64 (sign + (e + 1022) * 2 ^ 52 + a * 2 ^ (52 - e)))
  else
    let unit := 2 ^ (e - 52)
    let q := a / unit
    let r := a % unit
    let m := if unit < 2 * r ∨ (unit = 2 * r ∧ q % 2 = 1) then q + 1 else q
    let bits := (e + 1022) * 2 ^ 52 + m
    if 2047 * 2 ^ 52 ≤ bits then none else some (BitVec.ofNat 64 (sign + bits))

example : ofInt 1 = some one := by decide
example : ofInt (2 ^ 53 + 1) = ofInt (2 ^ 53) := by decide +kernel

end PyFloat

/-- A JSON value as Python's `json` holds it; objects keep their insertion order. -/
inductive Json where
  | null
  | bool (b : Bool)
  | int (n : Int)
  | float (x : PyFloat)
  | str (t : Text)
  | arr (xs : List Json)
  | obj (fields : List (Text × Json))

namespace Json

mutual
def decEq : (a b : Json) → Decidable (a = b)
  | .null, .null => isTrue rfl
  | .bool a, .bool b => decidable_of_iff (a = b) (by simp)
  | .int a, .int b => decidable_of_iff (a = b) (by simp)
  | .float a, .float b => decidable_of_iff (a = b) (by simp)
  | .str a, .str b => decidable_of_iff (a = b) (by simp)
  | .arr a, .arr b => have := decEqList a b; decidable_of_iff (a = b) (by simp)
  | .obj a, .obj b => have := decEqFields a b; decidable_of_iff (a = b) (by simp)
  | .null, .bool _ | .null, .int _ | .null, .float _ | .null, .str _ | .null, .arr _
  | .null, .obj _ | .bool _, .null | .bool _, .int _ | .bool _, .float _ | .bool _, .str _
  | .bool _, .arr _ | .bool _, .obj _ | .int _, .null | .int _, .bool _ | .int _, .float _
  | .int _, .str _ | .int _, .arr _ | .int _, .obj _ | .float _, .null | .float _, .bool _
  | .float _, .int _ | .float _, .str _ | .float _, .arr _ | .float _, .obj _ | .str _, .null
  | .str _, .bool _ | .str _, .int _ | .str _, .float _ | .str _, .arr _ | .str _, .obj _
  | .arr _, .null | .arr _, .bool _ | .arr _, .int _ | .arr _, .float _ | .arr _, .str _
  | .arr _, .obj _ | .obj _, .null | .obj _, .bool _ | .obj _, .int _ | .obj _, .float _
  | .obj _, .str _ | .obj _, .arr _ => isFalse nofun

def decEqList : (a b : List Json) → Decidable (a = b)
  | [], [] => isTrue rfl
  | x :: xs, y :: ys =>
    have := decEq x y
    have := decEqList xs ys
    decidable_of_iff (x = y ∧ xs = ys) (by simp)
  | [], _ :: _ | _ :: _, [] => isFalse nofun

def decEqFields : (a b : List (Text × Json)) → Decidable (a = b)
  | [], [] => isTrue rfl
  | (k, x) :: xs, (l, y) :: ys =>
    have := decEq x y
    have := decEqFields xs ys
    decidable_of_iff ((k = l ∧ x = y) ∧ xs = ys) (by simp)
  | [], _ :: _ | _ :: _, [] => isFalse nofun
end

instance : DecidableEq Json := decEq

/-- Induction over a JSON value and everything inside it. -/
@[elab_as_elim] theorem induct {P : Json → Prop} (null : P .null) (bool : ∀ b, P (.bool b))
    (int : ∀ n, P (.int n)) (float : ∀ x, P (.float x)) (str : ∀ t, P (.str t))
    (arr : ∀ xs, (∀ x ∈ xs, P x) → P (.arr xs))
    (obj : ∀ fields, (∀ e ∈ fields, P e.2) → P (.obj fields)) (j : Json) : P j :=
  @Json.rec P (fun xs => ∀ x ∈ xs, P x) (fun fields => ∀ e ∈ fields, P e.2) (fun e => P e.2)
    null bool int float str arr obj
    (fun _ h => absurd h List.not_mem_nil)
    (fun _ _ hx hxs => List.forall_mem_cons.2 ⟨hx, hxs⟩)
    (fun _ h => absurd h List.not_mem_nil)
    (fun _ _ he hes => List.forall_mem_cons.2 ⟨he, hes⟩)
    (fun _ _ h => h) j

/-- Python equality of a JSON value with a number. -/
def equalsInt (n : Int) : Json → Bool
  | .int m => m == n
  | .bool b => (if b then 1 else 0) == n
  | .float x => match PyFloat.ofInt n with
    | some y => !PyFloat.isNaN x && PyFloat.rank x == PyFloat.rank y
    | none => false
  | _ => false

/-- The fields `json.loads` rebuilds from fields that `json.dumps` wrote in key order. -/
def reloadKeys (fields : List (Text × Json)) : List (Text × Json) :=
  (SortedMap.ofList ((SortedMap.ofList fields).entries.map fun e =>
    (joinSurrogates e.1, e.2))).entries

mutual
/-- `json.loads(json.dumps(value, sort_keys=True))`. -/
def reload : Json → Json
  | .null => .null
  | .bool b => .bool b
  | .int n => .int n
  | .float x => .float (if PyFloat.isNaN x then PyFloat.nan else x)
  | .str t => .str (joinSurrogates t)
  | .arr xs => .arr (reloadList xs)
  | .obj fields => .obj (reloadKeys (reloadFields fields))

def reloadList : List Json → List Json
  | [] => []
  | x :: xs => reload x :: reloadList xs

def reloadFields : List (Text × Json) → List (Text × Json)
  | [] => []
  | (k, v) :: fields => (k, reload v) :: reloadFields fields
end

@[simp] theorem reloadList_eq_map (xs : List Json) : reloadList xs = xs.map reload := by
  induction xs with
  | nil => rfl
  | cons x xs ih => rw [reloadList, ih, List.map_cons]

@[simp] theorem reloadFields_eq_map (fields : List (Text × Json)) :
    reloadFields fields = fields.map fun e => (e.1, reload e.2) := by
  induction fields with
  | nil => rfl
  | cons e fields ih => rw [reloadFields, ih, List.map_cons]

theorem map_joinKeys (l : List (Text × Json)) (hj : ∀ e ∈ l, joinSurrogates e.1 = e.1) :
    l.map (fun e => (joinSurrogates e.1, e.2)) = l := by
  conv => rhs; rw [← List.map_id l]
  refine List.map_congr_left fun e he => ?_
  rw [hj e he]
  rfl

/-- Reading a field of an object whose keys are distinct and free of surrogate pairs. -/
theorem lookup_reloadKeys {fields : List (Text × Json)} (hn : (fields.map Prod.fst).Nodup)
    (hj : ∀ k ∈ fields.map Prod.fst, joinSurrogates k = k) (k : Text) :
    lookup k (reloadKeys fields) = lookup k fields := by
  have hm := map_joinKeys (SortedMap.ofList fields).entries fun e he =>
    hj _ (List.mem_map_of_mem (SortedMap.mem_of_mem_ofList he))
  rw [reloadKeys, hm, SortedMap.ofList_entries, ← SortedMap.get?_ofList_of_nodup hn]
  rfl

theorem mem_reloadKeys {fields : List (Text × Json)} {e : Text × Json}
    (h : e ∈ reloadKeys fields) : ∃ k, (k, e.2) ∈ fields ∧ e.1 = joinSurrogates k := by
  obtain ⟨d, hd, rfl⟩ := List.mem_map.1 (SortedMap.mem_of_mem_ofList h)
  exact ⟨d.1, SortedMap.mem_of_mem_ofList hd, rfl⟩

theorem reloadKeys_idem (fields : List (Text × Json)) :
    reloadKeys (reloadKeys fields) = reloadKeys fields := by
  have hj := map_joinKeys (reloadKeys fields) fun e he => by
    obtain ⟨k, _, hk⟩ := mem_reloadKeys he
    rw [hk, joinSurrogates_idem]
  have hm : (SortedMap.ofList (reloadKeys fields)).entries = reloadKeys fields := by
    rw [reloadKeys, SortedMap.ofList_entries]
  conv => lhs; rw [reloadKeys, hm, hj, hm]

/-- Fields already in order, their keys free of surrogate pairs. -/
theorem reloadKeys_of_ordered {fields : List (Text × Json)} (h : Ordered fields)
    (hj : ∀ e ∈ fields, joinSurrogates e.1 = e.1) : reloadKeys fields = fields := by
  rw [reloadKeys, SortedMap.ofList_of_ordered h, map_joinKeys fields hj,
    SortedMap.ofList_of_ordered h]

theorem reload_idem (j : Json) : reload (reload j) = reload j := by
  induction j using Json.induct with
  | null | bool | int => rfl
  | float x =>
    cases h : PyFloat.isNaN x <;> simp [reload, h]
  | str t => simp only [reload, joinSurrogates_idem]
  | arr xs ih =>
    simp only [reload, reloadList_eq_map, List.map_map]
    exact congrArg _ (List.map_congr_left ih)
  | obj fields ih =>
    simp only [reload, reloadFields_eq_map]
    have hv : (reloadKeys (fields.map fun e => (e.1, reload e.2))).map
        (fun e => (e.1, reload e.2)) = reloadKeys (fields.map fun e => (e.1, reload e.2)) := by
      conv => rhs; rw [← List.map_id (reloadKeys _)]
      refine List.map_congr_left fun e he => ?_
      obtain ⟨k, hk, _⟩ := mem_reloadKeys he
      obtain ⟨d, hd, he⟩ := List.mem_map.1 hk
      have hi := ih d hd
      rw [(Prod.mk.inj he).2] at hi
      rw [hi]
      rfl
    rw [hv, reloadKeys_idem]

end Json

end Library
