import GoalRouter.Library.Json

namespace Library
set_option autoImplicit true

inductive JsonType where
  | object | array | string | boolean | integer | number
  deriving DecidableEq

/-- The part of JSON Schema, draft 2020-12, that is used here; one constructor a keyword. -/
inductive Schema where
  | type (t : JsonType)
  | const (n : Int)
  | enum (values : List Text)
  | pattern (search : Text → Bool)
  | minLength (n : Nat)
  | minimum (n : Int)
  | maximum (n : Int)
  | minItems (n : Nat)
  | uniqueItems
  | items (s : Schema)
  | minProperties (n : Nat)
  | required (names : List Text)
  | properties (fields : List (Text × Schema))
  | onlyProperties (names : List Text)
  | additionalProperties (s : Schema)
  | propertyNames (s : Schema)
  | allOf (ss : List Schema)
  | anyOf (ss : List Schema)

def JsonType.admits : JsonType → Json → Bool
  | .object, .obj _ => true
  | .array, .arr _ => true
  | .string, .str _ => true
  | .boolean, .bool _ => true
  | .integer, .int _ => true
  | .integer, .float x => PyFloat.isInteger x
  | .number, .int _ => true
  | .number, .float _ => true
  | _, _ => false

/-- A number compared with a bound; a comparison with NaN is false. -/
def Json.lessThan (n : Int) : Json → Bool
  | .int m => m < n
  | .float x => match PyFloat.ofInt n with
    | some y => PyFloat.lt x y
    | none => false
  | _ => false

def Json.greaterThan (n : Int) : Json → Bool
  | .int m => n < m
  | .float x => match PyFloat.ofInt n with
    | some y => PyFloat.lt y x
    | none => false
  | _ => false

namespace Schema

mutual
/-- A keyword says nothing about a value of a type that is not its own. -/
def accepts : Schema → Json → Bool
  | .type t, j => t.admits j
  | .const _, .bool _ => false
  | .const n, j => j.equalsInt n
  | .enum values, .str t => values.contains t
  | .enum _, _ => false
  | .pattern search, .str t => search t
  | .minLength n, .str t => n ≤ t.length
  | .minimum n, j => !j.lessThan n
  | .maximum n, j => !j.greaterThan n
  | .minItems n, .arr xs => n ≤ xs.length
  | .uniqueItems, .arr xs => decide xs.Nodup
  | .items s, .arr xs => xs.all s.accepts
  | .minProperties n, .obj fields => n ≤ fields.length
  | .required names, .obj fields => names.all fun n => (lookup n fields).isSome
  | .properties schemas, .obj fields => acceptsProperties schemas fields
  | .onlyProperties names, .obj fields => fields.all fun e => names.contains e.1
  | .additionalProperties s, .obj fields => fields.all fun e => s.accepts e.2
  | .propertyNames s, .obj fields => fields.all fun e => s.accepts (.str e.1)
  | .allOf ss, j => acceptsAll ss j
  | .anyOf ss, j => acceptsAny ss j
  | _, _ => true

def acceptsAll : List Schema → Json → Bool
  | [], _ => true
  | s :: ss, j => s.accepts j && acceptsAll ss j

def acceptsAny : List Schema → Json → Bool
  | [], _ => false
  | s :: ss, j => s.accepts j || acceptsAny ss j

def acceptsProperties : List (Text × Schema) → List (Text × Json) → Bool
  | [], _ => true
  | (name, s) :: rest, fields =>
    (match lookup name fields with
      | some v => s.accepts v
      | none => true) && acceptsProperties rest fields
end

@[simp] theorem acceptsAll_iff (ss : List Schema) (j : Json) :
    acceptsAll ss j = true ↔ ∀ s ∈ ss, s.accepts j = true := by
  induction ss with
  | nil => simp [acceptsAll]
  | cons s ss ih => simp [acceptsAll, ih]

theorem acceptsProperties_iff (schemas : List (Text × Schema)) (fields : List (Text × Json)) :
    acceptsProperties schemas fields = true ↔
      ∀ e ∈ schemas, ∀ v, lookup e.1 fields = some v → e.2.accepts v = true := by
  induction schemas with
  | nil => simp [acceptsProperties]
  | cons e schemas ih =>
    obtain ⟨name, s⟩ := e
    rw [acceptsProperties, Bool.and_eq_true, ih, List.forall_mem_cons]
    cases lookup name fields <;> simp

theorem accepts_property {ss : List Schema} {schemas : List (Text × Schema)}
    {raw : List (Text × Json)} {name : Text} {s : Schema} {v : Json}
    (h : (Schema.allOf ss).accepts (.obj raw) = true) (hp : .properties schemas ∈ ss)
    (hs : (name, s) ∈ schemas) (hv : lookup name raw = some v) : s.accepts v = true := by
  rw [accepts, acceptsAll_iff] at h
  have ha := h _ hp
  rw [accepts] at ha
  exact (acceptsProperties_iff _ _).1 ha _ hs v hv

theorem accepts_required {ss : List Schema} {names : List Text} {schemas : List (Text × Schema)}
    {raw : List (Text × Json)} {name : Text} {s : Schema}
    (h : (Schema.allOf ss).accepts (.obj raw) = true) (hr : .required names ∈ ss)
    (hn : name ∈ names) (hp : .properties schemas ∈ ss) (hs : (name, s) ∈ schemas) :
    ∃ v, lookup name raw = some v ∧ s.accepts v = true := by
  have ha := h
  rw [accepts, acceptsAll_iff] at ha
  have hall := ha _ hr
  rw [accepts] at hall
  obtain ⟨v, hv⟩ := Option.isSome_iff_exists.1 (List.all_eq_true.1 hall name hn)
  exact ⟨v, hv, accepts_property h hp hs hv⟩

end Schema

end Library
