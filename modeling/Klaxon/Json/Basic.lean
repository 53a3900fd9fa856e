/-!
# JSON values

Whole numbers and doubles are different values: `1` is an `int` and `1.0` a `float`. The members of
an object stand in the order of their names, each name once. `Members.put` keeps that order
(`find?_put_self`, `find?_put_of_ne`), and every object of this library is made by it.
-/

namespace Klaxon

/-- A JSON value. -/
inductive Json where
  | null
  | bool (value : Bool)
  | int (value : Int)
  | float (value : Float)
  | string (value : String)
  | array (items : List Json)
  | object (members : List (String × Json))

namespace Json

instance : Inhabited Json := ⟨.null⟩

mutual

/-- Strict equality: an `int` differs from every `float`. -/
def beq : Json → Json → Bool
  | .null, .null => true
  | .bool a, .bool b => a == b
  | .int a, .int b => a == b
  | .float a, .float b => a == b
  | .string a, .string b => a == b
  | .array a, .array b => beqItems a b
  | .object a, .object b => beqMembers a b
  | _, _ => false

/-- Strict equality of items, place by place. -/
def beqItems : List Json → List Json → Bool
  | [], [] => true
  | x :: xs, y :: ys => beq x y && beqItems xs ys
  | _, _ => false

/-- Strict equality of members, place by place. -/
def beqMembers : List (String × Json) → List (String × Json) → Bool
  | [], [] => true
  | (k, x) :: xs, (l, y) :: ys => k == l && beq x y && beqMembers xs ys
  | _, _ => false

end

instance : BEq Json := ⟨beq⟩

namespace Members

/-- The value of a member. -/
def find? (name : String) : List (String × Json) → Option Json
  | [] => none
  | (k, v) :: rest => if k = name then some v else find? name rest

/-- Sets a member, in the order of the names. -/
def put (name : String) (value : Json) : List (String × Json) → List (String × Json)
  | [] => [(name, value)]
  | (k, v) :: rest =>
    if k = name then (name, value) :: rest
    else if name < k then (name, value) :: (k, v) :: rest
    else (k, v) :: put name value rest

/-- Sets members one after the other, so that the last one of a name stays. -/
def ofList (members : List (String × Json)) : List (String × Json) :=
  members.foldl (fun acc m => put m.1 m.2 acc) []

/-- A member that was set is found. -/
theorem find?_put_self (name : String) (value : Json) (ms : List (String × Json)) :
    find? name (put name value ms) = some value := by
  induction ms with
  | nil => simp [put, find?]
  | cons m rest ih =>
    obtain ⟨k, v⟩ := m
    unfold put
    split
    · simp [find?]
    · split
      · simp [find?]
      · next h _ => simp [find?, h, ih]

/-- Setting a member leaves the others alone. -/
theorem find?_put_of_ne {name other : String} (h : name ≠ other) (value : Json)
    (ms : List (String × Json)) : find? other (put name value ms) = find? other ms := by
  induction ms with
  | nil => simp [put, find?, h]
  | cons m rest ih =>
    obtain ⟨k, v⟩ := m
    unfold put
    split
    · next hk => subst hk; simp [find?, h]
    · split
      · simp [find?, h]
      · simp [find?, ih]

end Members

/-- The object with the given members; the last one of a name stays. -/
def ofMembers (members : List (String × Json)) : Json := .object (Members.ofList members)

/-- The member of an object. -/
def member? (name : String) : Json → Option Json
  | .object members => Members.find? name members
  | _ => none

/-- The text of a string. -/
def text? : Json → Option String
  | .string s => some s
  | _ => none

/-- The items of an array. -/
def items? : Json → Option (List Json)
  | .array items => some items
  | _ => none

/-- A number as a double. -/
def number? : Json → Option Float
  | .int i => some (Float.ofInt i)
  | .float f => some f
  | _ => none

/-- Whether the value is `null`. -/
def isNull : Json → Bool
  | .null => true
  | _ => false

/-- Whether the value is a number. -/
def isNumber (j : Json) : Bool := j.number?.isSome

/-- Whether the value is a string. -/
def isString (j : Json) : Bool := j.text?.isSome

/-- Whether the value is an array. -/
def isArray (j : Json) : Bool := j.items?.isSome

/-- Whether the value is an object. -/
def isObject : Json → Bool
  | .object _ => true
  | _ => false

end Json

end Klaxon
