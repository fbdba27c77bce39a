import GoalRouter.Library.JsonPath

namespace Library
namespace Json
set_option autoImplicit true

/-- A recursive function that copies a JSON value: what becomes of a leaf, which members are
replaced without being entered, and how many calls it needs for a moment to look at the keys of
an object. -/
structure Copy where
  leaf : Json → Json
  replaced : Text → Option Json
  keyCalls : List Text → Nat

namespace Copy

variable (f : Copy)

mutual
/-- The copy, however deep the value is. -/
def apply : Json → Json
  | .arr xs => .arr (applyList xs)
  | .obj fields => .obj (applyFields fields)
  | j => f.leaf j

def applyList : List Json → List Json
  | [] => []
  | x :: xs => apply x :: applyList xs

def applyFields : List (Text × Json) → List (Text × Json)
  | [] => []
  | (k, x) :: fields => (k, (f.replaced k).getD (apply x)) :: applyFields fields
end

mutual
/-- How many calls are open at once while a value is copied. -/
def depth : Json → Nat
  | .arr xs => depthList xs + 1
  | .obj fields => max (f.keyCalls (fields.map Prod.fst)) (depthFields fields) + 1
  | _ => 1

def depthList : List Json → Nat
  | [] => 0
  | x :: xs => max (depth x) (depthList xs)

def depthFields : List (Text × Json) → Nat
  | [] => 0
  | (k, x) :: fields => max (if (f.replaced k).isSome then 0 else depth x) (depthFields fields)
end

mutual
/-- The copy where so many calls may be open at once; with more of them it comes to nothing. -/
def within : Json → Nat → Option Json
  | _, 0 => none
  | .arr xs, room + 1 => (withinList xs room).map .arr
  | .obj fields, room + 1 =>
    if f.keyCalls (fields.map Prod.fst) ≤ room then (withinFields fields room).map .obj else none
  | j, _ + 1 => some (f.leaf j)

def withinList : List Json → Nat → Option (List Json)
  | [], _ => some []
  | x :: xs, room => (within x room).bind fun y => (withinList xs room).map (y :: ·)

def withinFields : List (Text × Json) → Nat → Option (List (Text × Json))
  | [], _ => some []
  | (k, x) :: fields, room =>
    (match f.replaced k with
      | some y => some y
      | none => within x room).bind fun y => (withinFields fields room).map ((k, y) :: ·)
end

variable {f}

theorem applyList_eq_map (xs : List Json) : f.applyList xs = xs.map f.apply := by
  induction xs with
  | nil => rfl
  | cons x xs ih => rw [applyList, ih, List.map_cons]

theorem applyFields_eq_map (fields : List (Text × Json)) :
    f.applyFields fields = fields.map fun e => (e.1, (f.replaced e.1).getD (f.apply e.2)) := by
  induction fields with
  | nil => rfl
  | cons e fields ih => rw [applyFields, ih, List.map_cons]

theorem withinList_eq {xs : List Json} {room : Nat}
    (h : ∀ x ∈ xs, f.within x room = if f.depth x ≤ room then some (f.apply x) else none) :
    f.withinList xs room = if f.depthList xs ≤ room then some (f.applyList xs) else none := by
  induction xs with
  | nil => exact (if_pos (Nat.zero_le room)).symm
  | cons x xs ih =>
    obtain ⟨hx, hxs⟩ := List.forall_mem_cons.1 h
    rw [withinList, hx, ih hxs, depthList, applyList]
    by_cases h₁ : f.depth x ≤ room <;> by_cases h₂ : f.depthList xs ≤ room <;> simp [h₁, h₂]

theorem withinFields_eq {fields : List (Text × Json)} {room : Nat}
    (h : ∀ e ∈ fields, f.within e.2 room =
      if f.depth e.2 ≤ room then some (f.apply e.2) else none) :
    f.withinFields fields room =
      if f.depthFields fields ≤ room then some (f.applyFields fields) else none := by
  induction fields with
  | nil => exact (if_pos (Nat.zero_le room)).symm
  | cons e fields ih =>
    obtain ⟨k, x⟩ := e
    obtain ⟨hx, hfields⟩ := List.forall_mem_cons.1 h
    rw [withinFields, hx, ih hfields, depthFields, applyFields]
    cases f.replaced k with
    | some y => by_cases h₂ : f.depthFields fields ≤ room <;> simp [h₂]
    | none =>
      by_cases h₁ : f.depth x ≤ room <;> by_cases h₂ : f.depthFields fields ≤ room <;>
        simp [h₁, h₂]

/-- Within a limit the copy is the same where the value is not too deep, and elsewhere none. -/
theorem within_eq (j : Json) (room : Nat) :
    f.within j room = if f.depth j ≤ room then some (f.apply j) else none := by
  induction j using Json.induct generalizing room with
  | arr xs ih =>
    cases room with
    | zero => simp [within, depth]
    | succ room =>
      rw [within, withinList_eq fun x hx => ih x hx room, depth, apply]
      by_cases h : f.depthList xs ≤ room <;> simp [h]
  | obj fields ih =>
    cases room with
    | zero => simp [within, depth]
    | succ room =>
      rw [within, withinFields_eq fun e he => ih e he room, depth, apply]
      by_cases h₁ : f.keyCalls (fields.map Prod.fst) ≤ room <;>
        by_cases h₂ : f.depthFields fields ≤ room <;> simp [h₁, h₂]
  | _ => cases room <;> simp [within, depth, apply]

theorem depth_apply (hl : ∀ j : Json, j.isLeaf = true → (f.leaf j).isLeaf = true) (j : Json) :
    f.depth (f.apply j) = f.depth j := by
  have hleaf {j : Json} (h : j.isLeaf = true) : f.depth j = 1 := by
    cases j with
    | arr => cases h
    | obj => cases h
    | _ => rfl
  induction j using Json.induct with
  | arr xs ih =>
    have hxs : f.depthList (f.applyList xs) = f.depthList xs := by
      induction xs with
      | nil => rfl
      | cons x xs ihx =>
        obtain ⟨hx, hxs⟩ := List.forall_mem_cons.1 ih
        rw [applyList, depthList, depthList, hx, ihx hxs]
    rw [apply, depth, depth, hxs]
  | obj fields ih =>
    have hfields : f.depthFields (f.applyFields fields) = f.depthFields fields := by
      induction fields with
      | nil => rfl
      | cons e fields ihe =>
        obtain ⟨k, x⟩ := e
        obtain ⟨hx, hrest⟩ := List.forall_mem_cons.1 ih
        rw [applyFields, depthFields, depthFields, ihe hrest]
        cases hk : f.replaced k with
        | some y => rfl
        | none => rw [Option.getD_none, hx]
    have hkeys : (f.applyFields fields).map Prod.fst = fields.map Prod.fst := by
      rw [applyFields_eq_map, List.map_map]
      rfl
    rw [apply, depth, depth, hfields, hkeys]
  | _ => exact hleaf (hl _ rfl)

/-- A list in a list, and so on, so many times. -/
def nested : Nat → Json
  | 0 => .arr []
  | n + 1 => .arr [nested n]

@[simp] theorem depth_nested (n : Nat) : f.depth (nested n) = n + 1 := by
  induction n with
  | zero => rfl
  | succ n ih => rw [nested, depth, depthList, depthList, ih, Nat.max_zero]

end Copy

end Json
end Library
