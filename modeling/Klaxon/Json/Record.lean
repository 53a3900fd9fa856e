import Klaxon.Json.Basic

/-!
# Decoding documents

`FromJson` reads a value of a type out of a JSON value, or refuses it; `ToJson` writes one.

A record is an object, or an array of its fields in the order of their declaration. `Record.read`
sorts what a document gives into one slot per field. It refuses a field that is given twice, also
under two of its names, and an array with too many items, and it ignores members of other names.
Each field is then taken with the rule for it: `required`, `nullable`, `nullableOr` or
`withDefault`.

An enumeration is written by name. `{"name": null}` is read as the name, too.
-/

namespace Klaxon

/-- A type whose values are written as JSON. -/
class ToJson (α : Type) where
  toJson : α → Json

/-- A type whose values are read from JSON. -/
class FromJson (α : Type) where
  fromJson? : Json → Option α

export ToJson (toJson)
export FromJson (fromJson?)

instance : ToJson Json := ⟨id⟩
instance : FromJson Json := ⟨some⟩

instance : ToJson String := ⟨.string⟩
instance : FromJson String := ⟨Json.text?⟩

instance : ToJson Bool := ⟨.bool⟩
instance : FromJson Bool where
  fromJson?
    | .bool b => some b
    | _ => none

instance : ToJson Nat := ⟨fun n => .int n⟩
instance : ToJson Int := ⟨.int⟩

/-- A whole number in a range, the end excluded. -/
def Json.intIn? (low high : Int) : Json → Option Int
  | .int i => if low ≤ i ∧ i < high then some i else none
  | _ => none

/-- A natural number below a bound. -/
def Json.natBelow? (bound : Nat) (j : Json) : Option Nat := (j.intIn? 0 bound).map Int.toNat

instance : ToJson UInt16 := ⟨fun n => .int n.toNat⟩
instance : FromJson UInt16 := ⟨fun j => (j.natBelow? UInt16.size).map UInt16.ofNat⟩

instance : ToJson UInt32 := ⟨fun n => .int n.toNat⟩
instance : FromJson UInt32 := ⟨fun j => (j.natBelow? UInt32.size).map UInt32.ofNat⟩

instance : ToJson UInt64 := ⟨fun n => .int n.toNat⟩
instance : FromJson UInt64 := ⟨fun j => (j.natBelow? UInt64.size).map UInt64.ofNat⟩

instance : ToJson Float := ⟨.float⟩
instance : FromJson Float := ⟨Json.number?⟩

instance {α : Type} [ToJson α] : ToJson (Option α) where
  toJson
    | none => .null
    | some a => toJson a

instance {α : Type} [FromJson α] : FromJson (Option α) where
  fromJson?
    | .null => some none
    | j => (fromJson? j).map some

instance {α : Type} [ToJson α] : ToJson (List α) := ⟨fun xs => .array (xs.map toJson)⟩

instance {α : Type} [FromJson α] : FromJson (List α) where
  fromJson?
    | .array items => items.mapM fromJson?
    | _ => none

namespace Json

/-- The value of an enumeration whose name a document gives. -/
def nameIn? {α : Type} (names : List (String × α)) : Json → Option α
  | .string s => names.lookup s
  | .object [(s, .null)] => names.lookup s
  | _ => none

/-- The value of an enumeration inside a tagged record, where an empty object stands for `null`. -/
def nameInTagged? {α : Type} (names : List (String × α)) : Json → Option α
  | .object [(s, .object [])] => names.lookup s
  | j => nameIn? names j

/-- The entries of a map with named keys. -/
def mapOf? {κ ν : Type} (key : String → Option κ) (value : Json → Option ν) :
    Json → Option (List (κ × ν))
  | .object members => members.mapM fun m => do some (← key m.1, ← value m.2)
  | _ => none

/-- The map with the given entries. -/
def ofMap {κ ν : Type} (key : κ → String) (value : ν → Json) (entries : List (κ × ν)) : Json :=
  ofMembers (entries.map fun e => (key e.1, value e.2))

/-- A member that is left out where there is no value. -/
def memberIfSome {α : Type} [ToJson α] (name : String) (value : Option α) : List (String × Json) :=
  match value with
  | none => []
  | some a => [(name, toJson a)]

end Json

/-- A field of a record: its name and the other names that documents may use for it. -/
structure Field where
  name : String
  aliases : List String

/-- A field with one name. -/
def field (name : String) : Field := ⟨name, []⟩

/-- What a document gives for a field. -/
inductive Slot where
  | given (value : Json)
  /-- The document is an object without the field. -/
  | absent
  /-- The document is an array that ends before the field. -/
  | cut

/-- The slots of a record by the names of its fields. -/
abbrev Record := List (String × Slot)

namespace Record

/-- The slot of a field in an object. -/
def slotOf (members : List (String × Json)) (f : Field) : Option Slot :=
  match members.filter fun m => m.1 == f.name || f.aliases.contains m.1 with
  | [] => some .absent
  | [m] => some (.given m.2)
  -- The field is given twice, under one of its names or under two.
  | _ => none

/-- Sorts a document into the slots of the given fields. -/
def read (fields : List Field) : Json → Option Record
  | .object members => fields.mapM fun f => do some (f.name, ← slotOf members f)
  | .array items =>
    -- An array may end early but does not go on behind the last field.
    if items.length ≤ fields.length then
      some (fields.zipIdx.map fun (f, i) =>
        (f.name, match items[i]? with
          | some j => .given j
          | none => .cut))
    else none
  | _ => none

/-- The slot of a field. -/
def slot (r : Record) (name : String) : Slot := (r.lookup name).getD .absent

/-- A field that has to be given, read with a function. -/
def requiredBy {α : Type} (r : Record) (name : String) (decode : Json → Option α) : Option α :=
  match r.slot name with
  | .given j => decode j
  | _ => none

/-- A field that has to be given. -/
def required {α : Type} [FromJson α] (r : Record) (name : String) : Option α :=
  r.requiredBy name fromJson?

/-- A field that may be missing or `null`, but not cut off. -/
def nullable {α : Type} [FromJson α] (r : Record) (name : String) : Option (Option α) :=
  match r.slot name with
  | .given j => fromJson? j
  | .absent => some none
  | .cut => none

/-- A field that may be missing, `null` or cut off. -/
def nullableOr {α : Type} [FromJson α] (r : Record) (name : String) : Option (Option α) :=
  match r.slot name with
  | .given j => fromJson? j
  | _ => some none

/-- A field with a default for where it is missing, read with a function. -/
def withDefaultBy {α : Type} (r : Record) (name : String) (default : α)
    (decode : Json → Option α) : Option α :=
  match r.slot name with
  | .given j => decode j
  | _ => some default

/-- A field with a default for where it is missing. -/
def withDefault {α : Type} [FromJson α] (r : Record) (name : String) (default : α) : Option α :=
  r.withDefaultBy name default fromJson?

end Record

end Klaxon
