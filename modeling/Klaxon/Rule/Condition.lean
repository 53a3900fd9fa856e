import Klaxon.Json.Path
import Klaxon.Rule.Operator

/-!
# Conditions

A condition is a tree: comparisons of fields of an event at its leaves, and logical operators above
them. `Condition.evaluate` gives its verdict on an event, and `Condition.validate` checks its shape
before a rule is loaded: at most 32 levels, one child below `not`, at least one below `and` and
`or`, fields without empty segments, and literals that their operators accept.

A tree that was not validated is evaluated, too: a logical operator without children, or `not` with
several, gives false.
-/

namespace Klaxon

/-- A logical operator. -/
inductive Connective where
  | and
  | or
  | not
  deriving DecidableEq, Inhabited

namespace Connective

/-- The name of a connective. -/
def name : Connective → String
  | .and => "and"
  | .or => "or"
  | .not => "not"

/-- The connectives by name. -/
def names : List (String × Connective) :=
  [("and", .and), ("AND", .and), ("or", .or), ("OR", .or), ("not", .not), ("NOT", .not)]

/-- A connective is found under its name. -/
theorem lookup_name (c : Connective) : names.lookup c.name = some c := by cases c <;> decide

end Connective

/-- A boolean expression over the fields of an event. -/
inductive Condition where
  | logical (connective : Connective) (children : List Condition)
  | comparison (field : String) (operator : Operator) (value : Json)

namespace Condition

instance : Inhabited Condition := ⟨.logical .and []⟩

/-- The most levels that a loaded condition has. -/
def maxDepth : Nat := 32

/-- What is wrong with the shape of a condition. -/
inductive Fault where
  | tooDeep
  | negationArity (found : Nat)
  | noChildren (connective : Connective)
  | badField (field : String)
  | badLiteral (operator : Operator) (value : Json)

/-- The wording of a fault. -/
def Fault.message : Fault → String
  | .tooDeep => "condition tree deeper than " ++ toString maxDepth ++ " levels"
  | .negationArity found => "NOT requires exactly one child, found " ++ toString found
  | .noChildren .and => "And requires at least one child"
  | .noChildren .or => "Or requires at least one child"
  | .noChildren .not => "Not requires at least one child"
  | .badField field => "invalid field path '" ++ field ++ "'"
  | .badLiteral operator value =>
    "operator '" ++ operator.name ++ "' cannot compare against literal " ++ value.render

mutual

/-- The verdict on an event. -/
def evaluate (context : Json) : Condition → Bool
  -- Without children `and` is not true, although all of them would be.
  | .logical .and children => !children.isEmpty && evaluateAll context children
  | .logical .or children => evaluateAny context children
  | .logical .not children => evaluateOnly context children
  | .comparison field operator value =>
    match context.lookup field with
    | some actual => operator.check actual value
    | none => false

/-- Whether all verdicts are true. -/
def evaluateAll (context : Json) : List Condition → Bool
  | [] => true
  | c :: cs => evaluate context c && evaluateAll context cs

/-- Whether one of the verdicts is true. -/
def evaluateAny (context : Json) : List Condition → Bool
  | [] => false
  | c :: cs => evaluate context c || evaluateAny context cs

/-- Whether there is one condition and its verdict is false. -/
def evaluateOnly (context : Json) : List Condition → Bool
  | [c] => !evaluate context c
  | _ => false

end

mutual

/-- The number of comparisons. -/
def leafCount : Condition → Nat
  | .logical _ children => leafCountAll children
  | .comparison .. => 1

/-- The number of comparisons in a list of conditions. -/
def leafCountAll : List Condition → Nat
  | [] => 0
  | c :: cs => leafCount c + leafCountAll cs

end

/-- Whether a field can be asked for: it is not blank and has no empty segment. -/
def isFieldPath (field : String) : Bool :=
  !Text.isBlankText field && (Json.segments field.toList).all fun s => !s.isEmpty

/-- The fault in the number of children of a connective. -/
def arityFault? : Connective → List Condition → Option Fault
  | .not, children => if children.length = 1 then none else some (.negationArity children.length)
  | connective, [] => some (.noChildren connective)
  | _, _ :: _ => none

mutual

/-- Checks a condition at a level of the tree. -/
def validateAt (depth : Nat) : Condition → Except Fault Unit
  | .logical connective children =>
    -- The depth is checked before the rest, so that nothing below the last level is looked at.
    if maxDepth ≤ depth then .error .tooDeep
    else
      match arityFault? connective children with
      | some fault => .error fault
      | none => validateAll (depth + 1) children
  | .comparison field operator value =>
    if maxDepth ≤ depth then .error .tooDeep
    else if !isFieldPath field then .error (.badField field)
    else if !operator.accepts value then .error (.badLiteral operator value)
    else .ok ()

/-- Checks conditions at a level of the tree, one after the other. -/
def validateAll (depth : Nat) : List Condition → Except Fault Unit
  | [] => .ok ()
  | c :: cs =>
    match validateAt depth c with
    | .error fault => .error fault
    | .ok () => validateAll depth cs

end

/-- Checks the shape of a condition; gives the first fault found. -/
def validate (c : Condition) : Except Fault Unit := validateAt 0 c

/-- Whether the shape of a condition is accepted. -/
def isValid (c : Condition) : Bool :=
  match c.validate with
  | .ok () => true
  | .error _ => false

/-- The conjunction of conditions. -/
def all (children : List Condition) : Condition := .logical .and children

/-- The disjunction of conditions. -/
def any (children : List Condition) : Condition := .logical .or children

/-- The negation of a condition. -/
def not (child : Condition) : Condition := .logical .not [child]

end Condition

end Klaxon
