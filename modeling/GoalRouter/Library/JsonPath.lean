import GoalRouter.Library.Json

namespace Library
namespace Json
set_option autoImplicit true

/-- A step into a JSON value: to a member of an object or an element of an array. -/
inductive Step where
  | member (key : Text)
  | element (index : Nat)

def enter : Json → Step → Option Json
  | .obj fields, .member key => lookup key fields
  | .arr xs, .element index => xs[index]?
  | _, _ => none

/-- The value at a path, at any depth. -/
def reach (j : Json) : List Step → Option Json
  | [] => some j
  | s :: p => (j.enter s).bind fun i => i.reach p

def isLeaf : Json → Bool
  | .obj _ | .arr _ => false
  | _ => true

theorem reach_leaf {j : Json} (h : j.isLeaf = true) (s : Step) (p : List Step) :
    j.reach (s :: p) = none := by
  cases j with
  | obj => cases h
  | arr => cases h
  | _ => rfl

theorem reach_cons_eq_some {j v : Json} {s : Step} {p : List Step} :
    j.reach (s :: p) = some v ↔ ∃ i, j.enter s = some i ∧ i.reach p = some v :=
  Option.bind_eq_some_iff

end Json
end Library
