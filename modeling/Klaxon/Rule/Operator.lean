import Klaxon.Json.Printer
import Klaxon.Json.Record
import Klaxon.Text.Glob
import Klaxon.Text.Occurrence
import Klaxon.Vocabulary

/-!
# Comparison operators

`Operator.check` compares a value found in an event with the literal of a rule. Operands of the
wrong types do not match; they are no error. Numbers are compared as doubles, everything else
strictly.

`Operator.accepts` tells which literals an operator can be given. The operators that need an order
or a text refuse the others, and so do those that look into a list.
-/

namespace Klaxon

/-- How a value of an event is compared with a literal. -/
inductive Operator where
  | eq
  | ne
  | gt
  | lt
  | gte
  | lte
  | contains
  | notContains
  | startsWith
  | endsWith
  | isIn
  | notIn
  | present
  | fits
  deriving DecidableEq, Inhabited

namespace Operator

/-- The name of an operator. -/
def name : Operator → String
  | .eq => "eq"
  | .ne => "ne"
  | .gt => "gt"
  | .lt => "lt"
  | .gte => "gte"
  | .lte => "lte"
  | .contains => "contains"
  | .notContains => "not_contains"
  | .startsWith => "starts_with"
  | .endsWith => "ends_with"
  | .isIn => "in"
  | .notIn => "not_in"
  | .present => "exists"
  | .fits => "matches"

/-- The operators by name and by sign. -/
def names : List (String × Operator) :=
  [("eq", .eq), ("==", .eq), ("ne", .ne), ("!=", .ne), ("gt", .gt), (">", .gt), ("lt", .lt),
    ("<", .lt), ("gte", .gte), (">=", .gte), ("lte", .lte), ("<=", .lte), ("contains", .contains),
    ("not_contains", .notContains), ("starts_with", .startsWith), ("ends_with", .endsWith),
    ("in", .isIn), ("not_in", .notIn), ("exists", .present), ("matches", .fits)]

/-- The operator whose name or sign a text is. -/
def ofText (text : String) : Except NameError Operator :=
  match names.lookup text with
  | some op => .ok op
  | none => .error (.operator text)

/-- An operator is found under its name. -/
theorem lookup_name (op : Operator) : names.lookup op.name = some op := by cases op <;> decide

instance : ToJson Operator := ⟨fun op => .string op.name⟩

/-- Equality of values: numbers as doubles, everything else strictly. -/
def equal (a b : Json) : Bool :=
  match a.number?, b.number? with
  | some x, some y => x == y
  | _, _ => a == b

/-- Whether a number or text comes before another one; values of other types are not ordered. -/
def precedes (a b : Json) : Bool :=
  match a, b with
  | .string x, .string y => decide (x < y)
  -- A number and a text are not ordered, since a text is no number.
  | a, b =>
    match a.number?, b.number? with
    | some x, some y => decide (x < y)
    | _, _ => false

/-- Whether two numbers or two texts are the same in their order. -/
def ties (a b : Json) : Bool :=
  match a, b with
  | .string x, .string y => x == y
  | a, b =>
    match a.number?, b.number? with
    | some x, some y => x == y
    | _, _ => false

/-- Whether one of the items equals a value. -/
def member (value : Json) (items : List Json) : Bool := items.any fun i => equal value i

/-- Whether a text contains a text or a list a value, where that question can be asked. -/
def containment? (actual expected : Json) : Option Bool :=
  match actual, expected with
  | .string a, .string e => some (Text.containsWord e.toList a.toList)
  | .array items, _ => some (items.any fun i => equal i expected)
  | _, _ => none

/-- Whether a value found in an event stands in the relation to the literal. -/
def check (op : Operator) (actual expected : Json) : Bool :=
  match op with
  | .eq => equal actual expected
  | .ne => !equal actual expected
  | .gt => precedes expected actual
  | .lt => precedes actual expected
  | .gte => precedes expected actual || ties actual expected
  | .lte => precedes actual expected || ties actual expected
  -- Where the question cannot be asked, both answers are no.
  | .contains => containment? actual expected == some true
  | .notContains => containment? actual expected == some false
  | .startsWith =>
    match actual, expected with
    | .string a, .string e => e.toList.isPrefixOf a.toList
    | _, _ => false
  | .endsWith =>
    match actual, expected with
    | .string a, .string e => e.toList.isSuffixOf a.toList
    | _, _ => false
  | .isIn =>
    match expected with
    | .array items => member actual items
    | _ => false
  | .notIn =>
    match expected with
    | .array items => !member actual items
    | _ => false
  | .present => !actual.isNull
  | .fits =>
    match actual, expected with
    | .string a, .string pattern => Text.Glob.fits pattern a
    | _, _ => false

/-- Whether the operator can be given a literal. -/
def accepts (op : Operator) (literal : Json) : Bool :=
  match op with
  | .eq | .ne | .present => true
  | .gt | .lt | .gte | .lte => literal.isNumber || literal.isString
  | .contains | .notContains => !literal.isNull
  | .startsWith | .endsWith | .fits => literal.isString
  | .isIn | .notIn => literal.isArray

end Operator

end Klaxon
