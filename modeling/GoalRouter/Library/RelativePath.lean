import GoalRouter.Library.PurePath

namespace Library
set_option autoImplicit true

/-- A relative `PurePosixPath`, by the components `pathlib` keeps. -/
structure RelativePath where
  parts : List Text
  kept : ∀ part ∈ parts, keptPart part = true ∧ slash ∉ part

namespace RelativePath

def asPosix (path : RelativePath) : Text := joinParts [] path.parts

theorem pathParts_asPosix (path : RelativePath) : pathParts path.asPosix = path.parts := by
  rw [asPosix, joinParts, List.nil_append]
  split
  · rename_i h
    have hnil := pathParts_intercalate path.kept
    rw [h] at hnil
    rw [← hnil]
    decide
  · exact pathParts_intercalate path.kept

theorem asPosix_injective : Function.Injective asPosix := by
  intro p q h
  have hparts : p.parts = q.parts := by
    rw [← p.pathParts_asPosix, ← q.pathParts_asPosix, h]
  cases p
  cases q
  cases hparts
  rfl

/-- Paths are sorted by their text. -/
instance : LinearOrder RelativePath := LinearOrder.lift' asPosix asPosix_injective

instance : IsTrans RelativePath (· ≤ ·) := inferInstance

instance : Std.Antisymm fun a b : RelativePath => a ≤ b := inferInstance

instance : Std.Total fun a b : RelativePath => a ≤ b := inferInstance

theorem lt_iff {p q : RelativePath} : p < q ↔ p.asPosix < q.asPosix := Iff.rfl

end RelativePath

end Library
