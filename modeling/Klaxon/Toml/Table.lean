import Klaxon.Toml.Text

/-!
# Tables under construction

A document is read line by line into a tree of tables. A table remembers how it came to be, because
that decides what may still be done with it: a header opens a table once, though another header may
have passed through it before, and a dotted key extends only tables that have no header. Values,
inline tables among them, are closed.

`addValue?` sets a value in a table, `openTable?` and `openElement?` do what headers ask for. Each
gives nothing where the document contradicts itself.
-/

namespace Klaxon.Toml

/-- How a table came to be. -/
inductive Origin where
  /-- It has a header, or is the document, or an element of an array of tables. -/
  | header
  /-- It is on the way of a header. -/
  | implied
  /-- It is on the way of a dotted key. -/
  | dotted
  deriving DecidableEq

/-- What a name stands for. -/
inductive Node where
  | value (value : Json)
  | table (origin : Origin) (entries : List (String × Node))
  /-- An array of tables, the last one apart from those before it. -/
  | tables (before : List (List (String × Node))) (last : List (String × Node))

/-- The entries of a table. -/
abbrev Entries := List (String × Node)

namespace Entries

/-- Replaces the node of a name. -/
def replace (name : String) (node : Node) (entries : Entries) : Entries :=
  entries.map fun e => if e.1 == name then (name, node) else e

/-- Adds the node of a name that is not taken. -/
def add? (name : String) (node : Node) (entries : Entries) : Option Entries :=
  if (entries.lookup name).isSome then none else some (entries ++ [(name, node)])

/-- Changes the table at the end of a path; missing tables on the way are made. In an array of
tables the way leads through the last one. A dotted way does not lead through tables with
headers. -/
def change? (dotted : Bool) (change : Origin → Entries → Option Entries) :
    List String → Origin → Entries → Option Entries
  | [], origin, entries => change origin entries
  | name :: path, _, entries =>
    match entries.lookup name with
    | none => do
      let origin : Origin := if dotted then .dotted else .implied
      let inner ← change? dotted change path origin []
      some (entries ++ [(name, .table origin inner)])
    | some (.value _) => none
    | some (.table origin inner) =>
      -- A header closes its table to dotted keys from elsewhere.
      if dotted && origin = .header then none
      else do
        let inner ← change? dotted change path origin inner
        some (entries.replace name (.table origin inner))
    | some (.tables before last) => do
      let last ← change? dotted change path .header last
      some (entries.replace name (.tables before last))

/-- Sets a value at a key. A dotted key ends in a table that dotted keys made. -/
def addValue? (key : Key) (value : Json) (entries : Entries) : Option Entries :=
  let add (origin : Origin) (inner : Entries) : Option Entries :=
    if key.path.isEmpty || origin = .dotted then inner.add? key.name (.value value) else none
  change? true add key.path .header entries

/-- Opens the table of a header. -/
def openTable? (key : Key) (entries : Entries) : Option Entries :=
  let enter (_ : Origin) (inner : Entries) : Option Entries :=
    match inner.lookup key.name with
    | none => some (inner ++ [(key.name, .table .header [])])
    -- A table that other headers passed through may still get a header of its own.
    | some (.table .implied table) => some (inner.replace key.name (.table .header table))
    | some _ => none
  change? false enter key.path .header entries

/-- Adds an element to the array of tables of a header. -/
def openElement? (key : Key) (entries : Entries) : Option Entries :=
  let extend (_ : Origin) (inner : Entries) : Option Entries :=
    match inner.lookup key.name with
    | none => some (inner ++ [(key.name, .tables [] [])])
    | some (.tables before last) =>
      some (inner.replace key.name (.tables (before ++ [last]) []))
    | some _ => none
  change? false extend key.path .header entries

end Entries

mutual

/-- The value of a node. -/
def Node.toJson : Node → Json
  | .value value => value
  | .table _ entries => Json.ofMembers (membersOf entries)
  | .tables before last =>
    .array (elementsOf before ++ [Json.ofMembers (membersOf last)])

/-- The members of a table. -/
def membersOf : List (String × Node) → List (String × Json)
  | [] => []
  | (name, node) :: rest => (name, node.toJson) :: membersOf rest

/-- The elements of an array of tables. -/
def elementsOf : List (List (String × Node)) → List Json
  | [] => []
  | entries :: rest => Json.ofMembers (membersOf entries) :: elementsOf rest

end

/-- The value of a table. -/
def Entries.toJson (entries : Entries) : Json := Json.ofMembers (membersOf entries)

end Klaxon.Toml
