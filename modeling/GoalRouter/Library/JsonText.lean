import GoalRouter.Library.Dict
import GoalRouter.Library.Json

namespace Library
set_option autoImplicit true

namespace Json

mutual
/-- `json.loads(json.dumps(value))`: of equal names the last one's value stands. -/
def reread : Json → Json
  | .null => .null
  | .bool b => .bool b
  | .int n => .int n
  | .float x => .float (if PyFloat.isNaN x then PyFloat.nan else x)
  | .str t => .str (joinSurrogates t)
  | .arr xs => .arr (rereadList xs)
  | .obj fields => .obj (Dict.ofList (rereadFields fields)).entries

def rereadList : List Json → List Json
  | [] => []
  | x :: xs => reread x :: rereadList xs

def rereadFields : List (Text × Json) → List (Text × Json)
  | [] => []
  | (k, v) :: fields => (joinSurrogates k, reread v) :: rereadFields fields
end

mutual
/-- The integers that stand in a value. -/
def integers : Json → List Int
  | .int n => [n]
  | .arr xs => integersList xs
  | .obj fields => integersFields fields
  | _ => []

def integersList : List Json → List Int
  | [] => []
  | x :: xs => integers x ++ integersList xs

def integersFields : List (Text × Json) → List Int
  | [] => []
  | (_, v) :: fields => integers v ++ integersFields fields
end

/-- Every integer of a value has at most so many digits. -/
abbrev Printable (digits : Nat) (j : Json) : Prop := ∀ n ∈ j.integers, n.natAbs < 10 ^ digits

mutual
/-- How many brackets are open at once in the text of a value. -/
def nesting : Json → Nat
  | .arr xs => nestingList xs + 1
  | .obj fields => nestingFields fields + 1
  | _ => 0

def nestingList : List Json → Nat
  | [] => 0
  | x :: xs => max (nesting x) (nestingList xs)

def nestingFields : List (Text × Json) → Nat
  | [] => 0
  | (_, v) :: fields => max (nesting v) (nestingFields fields)
end

/-- A value that its JSON text tells in full. -/
inductive Intact : Json → Prop where
  | null : Intact .null
  | bool (b : Bool) : Intact (.bool b)
  | int (n : Int) : Intact (.int n)
  | float (h : PyFloat.isNaN x = false) : Intact (.float x)
  | str (h : Joined t) : Intact (.str t)
  | arr (h : ∀ x ∈ xs, Intact x) : Intact (.arr xs)
  | obj (hn : (fields.map Prod.fst).Nodup) (hk : ∀ e ∈ fields, Joined e.1)
      (hv : ∀ e ∈ fields, Intact e.2) : Intact (.obj fields)

theorem Intact.reread (h : Intact j) : j.reread = j := by
  induction h with
  | null | bool | int => rfl
  | float h => simp only [Json.reread, h, Bool.false_eq_true, if_false]
  | str h => simp only [Json.reread, h.joinSurrogates]
  | @arr xs _ ih =>
    have hl : rereadList xs = xs := by
      clear * - ih
      induction xs with
      | nil => rfl
      | cons x xs ihx =>
        rw [rereadList, ih x List.mem_cons_self, ihx fun y hy => ih y (List.mem_cons_of_mem _ hy)]
    rw [Json.reread, hl]
  | @obj fields hn hk hv ih =>
    have hf : rereadFields fields = fields := by
      clear hn hv
      induction fields with
      | nil => rfl
      | cons e fields ihf =>
        rw [rereadFields, (hk e List.mem_cons_self).joinSurrogates, ih e List.mem_cons_self,
          ihf (fun d hd => hk d (List.mem_cons_of_mem _ hd))
            fun d hd => ih d (List.mem_cons_of_mem _ hd)]
    rw [Json.reread, hf, Dict.ofList_entries hn]

end Json

end Library
