import GoalRouter.Errors
import GoalRouter.Library.Json

namespace GoalRouter
open Library
set_option autoImplicit true

/-- A mapping with string keys. -/
abbrev Fields := List (Text × Json)

/-- What the field decoders of one module raise. -/
structure Decoder where
  missing : Text
  kind : ErrorKind
  mappingKind : ErrorKind

namespace Decoder

variable (d : Decoder)

def expected (what context : Text) : PyError :=
  ⟨d.kind, text "Expected " ++ what ++ text " for " ++ context⟩

def field (value : Fields) (name : Text) : Except PyError Json :=
  match lookup name value with
  | some j => .ok j
  | none => .error ⟨d.kind, d.missing ++ name⟩

def mapping (context : Text) : Json → Except PyError Fields
  | .obj fields => .ok fields
  | _ => .error ⟨d.mappingKind, text "Expected object for " ++ context⟩

def plainString (context : Text) : Json → Except PyError Text
  | .str t => .ok t
  | _ => .error (d.expected (text "string") context)

def plainBoolean (context : Text) : Json → Except PyError Bool
  | .bool b => .ok b
  | _ => .error (d.expected (text "boolean") context)

def plainInteger (context : Text) : Json → Except PyError Int
  | .int n => .ok n
  | _ => .error (d.expected (text "integer") context)

/-- `float(item)` of a number; an integer past the largest float raises `OverflowError`. -/
def plainNumber (context : Text) : Json → Except PyError PyFloat
  | .float x => .ok x
  | .int n => match PyFloat.ofInt n with
    | some x => .ok x
    | none => .error ⟨.overflowError, text "int too large to convert to float"⟩
  | _ => .error (d.expected (text "number") context)

def plainSequence (context : Text) : Json → Except PyError (List Json)
  | .arr xs => .ok xs
  | _ => .error (d.expected (text "array") context)

/-- A field that is there, read by `read`. -/
def required (read : Text → Json → Except PyError α) (value : Fields) (name : Text) :
    Except PyError α :=
  d.field value name >>= read name

end Decoder

@[simp] theorem ok_bind {α β : Type} (a : α) (f : α → Except PyError β) :
    (Except.ok a >>= f) = f a := rfl

@[simp] theorem error_bind {α β : Type} (e : PyError) (f : α → Except PyError β) :
    (Except.error e >>= f) = .error e := rfl

theorem bind_ok {α β : Type} {x : Except PyError α} {f : α → Except PyError β} {b : β}
    (h : (x >>= f) = .ok b) : ∃ a, x = .ok a ∧ f a = .ok b := by
  cases x with
  | error e => cases h
  | ok a => exact ⟨a, rfl, h⟩

theorem mapM_forall {α β : Type} {f : α → Except PyError β} {xs : List α} {ys : List β}
    (h : xs.mapM f = .ok ys) : List.Forall₂ (fun x y => f x = .ok y) xs ys := by
  induction xs generalizing ys with
  | nil =>
    cases h
    exact .nil
  | cons x xs ih =>
    rw [List.mapM_cons] at h
    obtain ⟨y, hy, h⟩ := bind_ok h
    obtain ⟨rest, hrest, h⟩ := bind_ok h
    cases h
    exact .cons hy (ih hrest)

theorem mapM_ok {α β : Type} {f : α → Except PyError β} {g : α → β} {xs : List α}
    (h : ∀ x ∈ xs, f x = .ok (g x)) : xs.mapM f = .ok (xs.map g) := by
  induction xs with
  | nil => rfl
  | cons x xs ih =>
    rw [List.mapM_cons, h x List.mem_cons_self, ih fun y hy => h y (List.mem_cons_of_mem _ hy)]
    rfl

theorem mapM_mono {α β : Type} {f g : α → Except PyError β} {xs : List α} {ys : List β}
    (hg : ∀ x y, f x = .ok y → g x = .ok y) (h : xs.mapM f = .ok ys) : xs.mapM g = .ok ys := by
  induction xs generalizing ys with
  | nil => exact h
  | cons x xs ih =>
    rw [List.mapM_cons] at h ⊢
    obtain ⟨y, hy, h⟩ := bind_ok h
    obtain ⟨rest, hrest, h⟩ := bind_ok h
    rw [hg x y hy, ok_bind, ih hrest]
    exact h

theorem mapM_error {α β : Type} {f : α → Except PyError β} {xs : List α} {x : α} {e : PyError}
    (hx : x ∈ xs) (h : f x = .error e) : ∃ e', xs.mapM f = .error e' := by
  induction xs with
  | nil => cases hx
  | cons y xs ih =>
    rw [List.mapM_cons]
    cases hy : f y with
    | error e' => exact ⟨e', rfl⟩
    | ok b =>
      rcases List.mem_cons.1 hx with rfl | hx
      · rw [h] at hy
        cases hy
      · obtain ⟨e', he⟩ := ih hx
        exact ⟨e', by rw [ok_bind, he]; rfl⟩

theorem mapM_ok_mem {α β : Type} {f : α → Except PyError β} {xs : List α} {ys : List β}
    (h : xs.mapM f = .ok ys) : ∀ y ∈ ys, ∃ x ∈ xs, f x = .ok y := by
  induction xs generalizing ys with
  | nil =>
    cases h
    exact fun y hy => absurd hy List.not_mem_nil
  | cons x xs ih =>
    rw [List.mapM_cons] at h
    cases hx : f x with
    | error e =>
      rw [hx] at h
      cases h
    | ok b =>
      cases hxs : xs.mapM f with
      | error e =>
        rw [hx, hxs] at h
        cases h
      | ok bs =>
        rw [hx, hxs] at h
        cases h
        intro y hy
        rcases List.mem_cons.1 hy with rfl | hy
        · exact ⟨x, List.mem_cons_self, hx⟩
        · obtain ⟨z, hz, he⟩ := ih hxs y hy
          exact ⟨z, List.mem_cons_of_mem _ hz, he⟩

/-- What every call maps to the same thing as its argument, the results do together. -/
theorem mapM_ok_map {α β γ : Type} {f : α → Except PyError β} {g : β → γ} {k : α → γ} {xs : List α}
    {ys : List β} (h : xs.mapM f = .ok ys) (hf : ∀ x y, f x = .ok y → g y = k x) :
    ys.map g = xs.map k := by
  induction xs generalizing ys with
  | nil =>
    cases h
    rfl
  | cons x xs ih =>
    rw [List.mapM_cons] at h
    obtain ⟨y, hy, h⟩ := bind_ok h
    obtain ⟨rest, hrest, h⟩ := bind_ok h
    cases h
    rw [List.map_cons, List.map_cons, hf x y hy, ih hrest]

end GoalRouter
