import Klaxon.Toml.Number
import Klaxon.Toml.Table

/-!
# TOML documents

`Toml.ofText?` gives the value of a document: tables are objects, numbers and texts are themselves,
and infinities and NaN are doubles. Dates and times are not read.
-/

namespace Klaxon.Toml

/-! ## Values -/

mutual

/-- A value with at most `depth` levels of nesting, and the rest. -/
def readValue : Nat → Nat → List Char → Option (Json × List Char)
  | 0, _, _ => none
  | fuel + 1, depth, cs =>
    match cs with
    | '[' :: rest =>
      match depth with
      | 0 => none
      | depth + 1 => do
        let (items, rest) ← readItems fuel depth rest
        some (.array items, rest)
    | '\x7b' :: rest =>
      match depth with
      | 0 => none
      | depth + 1 => do
        let (entries, rest) ← match skipBlanks rest with
          | '\x7d' :: rest => some ([], rest)
          | rest => readPairs fuel depth [] rest
        some (Entries.toJson entries, rest)
    | c :: rest =>
      if c == '"' || c == apostrophe then do
        let (s, rest) ← readString (c :: rest)
        some (.string s, rest)
      else readWord (c :: rest)
    | [] => none

/-- The items of an array behind its bracket or a comma, and the rest behind the closing bracket. -/
def readItems : Nat → Nat → List Char → Option (List Json × List Char)
  | 0, _, _ => none
  | fuel + 1, depth, cs =>
    match skipLines cs.length cs with
    | ']' :: rest => some ([], rest)
    | cs => do
      let (item, rest) ← readValue fuel depth cs
      match skipLines rest.length rest with
      | ',' :: rest => do
        let (items, rest) ← readItems fuel depth rest
        some (item :: items, rest)
      | ']' :: rest => some ([item], rest)
      | _ => none

/-- Adds the pairs of an inline table from the first one on, and gives the rest behind the closing
brace. -/
def readPairs : Nat → Nat → Entries → List Char → Option (Entries × List Char)
  | 0, _, _, _ => none
  | fuel + 1, depth, entries, cs => do
    let (key, rest) ← readKey cs
    match rest with
    | '=' :: rest => do
      let (value, rest) ← readValue fuel depth (skipBlanks rest)
      let entries ← entries.addValue? key value
      match skipBlanks rest with
      | ',' :: rest => readPairs fuel depth entries rest
      | '\x7d' :: rest => some (entries, rest)
      | _ => none
    | _ => none

end

/-! ## Lines -/

/-- A document that is being read. -/
structure Draft where
  root : Entries
  /-- The path of the table that the last header opened. -/
  current : List String

namespace Draft

/-- A document without lines. -/
def empty : Draft := ⟨[], []⟩

/-- Sets a value in the table that is open. -/
def addValue? (d : Draft) (key : Key) (value : Json) : Option Draft := do
  let root ← d.root.change? false (fun _ inner => inner.addValue? key value) d.current .header
  some { d with root }

end Draft

/-- A header at its bracket, and the rest of its line. -/
def readHeader (d : Draft) : List Char → Option (Draft × List Char)
  | '[' :: '[' :: rest => do
    let (key, rest) ← readKey rest
    match rest with
    | ']' :: ']' :: rest => some (⟨← d.root.openElement? key, key.parts⟩, rest)
    | _ => none
  | '[' :: rest => do
    let (key, rest) ← readKey rest
    match rest with
    | ']' :: rest => some (⟨← d.root.openTable? key, key.parts⟩, rest)
    | _ => none
  | _ => none

/-- A key with its value, and the rest of its line. -/
def readPair (d : Draft) (cs : List Char) : Option (Draft × List Char) := do
  let (key, rest) ← readKey cs
  match rest with
  | '=' :: rest => do
    let start := skipBlanks rest
    let (value, rest) ← readValue (2 * start.length + 2) maxNesting start
    some (← d.addValue? key value, rest)
  | _ => none

/-- Reads the lines of a document; `fuel` bounds their number. -/
def readLines : Nat → Draft → List Char → Option Draft
  | 0, _, _ => none
  | fuel + 1, d, cs =>
    match skipLines cs.length cs with
    | [] => some d
    -- A comment on the last line needs no newline behind it.
    | '#' :: rest => if (skipComment ('#' :: rest)).isEmpty then some d else none
    | c :: rest => do
      let (d, rest) ← if c == '[' then readHeader d (c :: rest) else readPair d (c :: rest)
      readLines fuel d (← lineEnd? rest)

/-- Drops the mark of byte order that a document may start with. -/
def skipMark : List Char → List Char
  | '\ufeff' :: rest => rest
  | cs => cs

/-- The value of a document. -/
def ofText? (text : String) : Option Json := do
  let cs := skipMark text.toList
  let d ← readLines (cs.length + 1) .empty cs
  some d.root.toJson

end Klaxon.Toml
