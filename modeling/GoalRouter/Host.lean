import GoalRouter.Domain
import GoalRouter.Errors
import GoalRouter.Library.JsonSchema

namespace GoalRouter
open Library
set_option autoImplicit true

/-- What the code calls outside the repository, as functions of their arguments. -/
structure Host where
  /-- `repr` of a string. -/
  repr : Text → Text
  /-- `repr` of a JSON value; none for `None` in place of a missing one. -/
  reprJson : Option Json → Text
  /-- `str.casefold`. -/
  fold : Text → Text
  /-- `fnmatch.fnmatchcase`. -/
  fnmatchcase : Text → Text → Bool
  /-- `json.dumps(value, sort_keys=True, separators=(",", ":"))`. -/
  canonicalDumps : Json → Text
  /-- `json.loads`, or the text of its `JSONDecodeError`. -/
  loads : Text → Except Text Json
  /-- `hashlib.sha256(text.encode("utf-8")).hexdigest()`. -/
  sha256 : Text → Text
  /-- The location and message of the first error `jsonschema` reports. -/
  schemaError : Schema → Json → Text × Text
  /-- `Path.resolve`, or the text of its `ValueError`. -/
  resolve : PurePath → Except Text PurePath
  /-- The injected report renderer. -/
  render : RunState → Except PyError Text

/-- `", ".join(parts)` and its like. -/
def joinTexts (separator : Text) (parts : List Text) : Text := separator.intercalate parts

def isInfix (p t : Text) : Bool := t.tails.any p.isPrefixOf

def lowerAlphanumeric (c : CodePoint) : Bool :=
  (97 ≤ c.val && c.val ≤ 122) || (48 ≤ c.val && c.val ≤ 57)

def isIdentifier (t : Text) : Bool :=
  (t.splitOn 0x2D).all fun p => p != [] && p.all lowerAlphanumeric

/-- `re.search("^[a-z0-9]+(?:-[a-z0-9]+)*$", t)`: `$` also matches before a last newline. -/
def searchIdentifier (t : Text) : Bool :=
  isIdentifier t || (t.getLast? == some 0x0A && isIdentifier t.dropLast)

def identifierSchema : Schema := .allOf [.type .string, .pattern searchIdentifier]

/-- A non-empty string. -/
def nonEmptyString : Schema := .allOf [.type .string, .minLength 1]

def uniqueStrings (item : Schema) : Schema :=
  .allOf [.type .array, .items item, .uniqueItems]

/-- An object with no other property than the given ones. -/
def closedObject (required : List Text) (fields : List (Text × Schema)) : List Schema :=
  [.type .object, .onlyProperties (fields.map Prod.fst), .required required, .properties fields]

end GoalRouter
