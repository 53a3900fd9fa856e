import Klaxon.Json.Reader

/-!
# The texts of a TOML document

Blanks, comments, line ends, strings and keys. Each reader takes the characters that are left and
gives what it read with the rest, or nothing where the text is not well formed.

Strings have four forms: basic ones with escapes and literal ones without, each on one line or on
several. In those of several lines a line end is a single newline, and one right behind the opening
quotes is dropped.
-/

namespace Klaxon.Toml

/-- A character that may stand in comments and strings: a tab, or one that is no control character
of ASCII. -/
def isPlain (c : Char) : Bool := c == '\t' || (0x20 ≤ c.toNat && c.toNat != 0x7F)

/-- Drops the blanks of a line. -/
def skipBlanks (cs : List Char) : List Char := cs.dropWhile fun c => c == ' ' || c == '\t'

/-- The rest behind a newline. -/
def newline? : List Char → Option (List Char)
  | '\n' :: rest => some rest
  | '\r' :: '\n' :: rest => some rest
  | _ => none

/-- Drops a comment. -/
def skipComment : List Char → List Char
  | '#' :: rest => rest.dropWhile isPlain
  | cs => cs

/-- The rest behind the end of a line, where nothing but blanks and a comment may stand. -/
def lineEnd? (cs : List Char) : Option (List Char) :=
  match skipComment (skipBlanks cs) with
  | [] => some []
  | rest => newline? rest

/-- Drops blanks, comments and newlines; `fuel` bounds the lines. -/
def skipLines : Nat → List Char → List Char
  | 0, cs => cs
  | fuel + 1, cs =>
    let start := skipBlanks cs
    match newline? (skipComment start) with
    | some rest => skipLines fuel rest
    | none => start

/-! ## Strings -/

/-- The apostrophe, which encloses literal strings. -/
def apostrophe : Char := '\x27'

/-- The character that hexadecimal digits number, and the rest. -/
def readScalar (digits : Nat) (cs : List Char) : Option (Char × List Char) := do
  let values ← (cs.take digits).mapM Json.hexValue?
  let n := values.foldl (fun n d => n * 16 + d) 0
  if values.length = digits ∧ n.isValidChar then some (Char.ofNat n, cs.drop digits) else none

/-- The character of an escape behind its backslash, and the rest. -/
def readEscape : List Char → Option (Char × List Char)
  | [] => none
  | c :: rest =>
    if c == 'u' then readScalar 4 rest
    else if c == 'U' then readScalar 8 rest
    else if c == '/' then none
    else (Json.shortEscape? c).map fun e => (e, rest)

/-- A basic string behind its opening quote, in reverse, and the rest behind the closing one. -/
def readBasicTail : Nat → List Char → List Char → Option (List Char × List Char)
  | 0, _, _ => none
  | fuel + 1, read, cs =>
    match cs with
    | [] => none
    | '"' :: rest => some (read, rest)
    | '\\' :: rest => do
      let (c, rest) ← readEscape rest
      readBasicTail fuel (c :: read) rest
    | c :: rest => if isPlain c then readBasicTail fuel (c :: read) rest else none

/-- The rest behind a backslash that ends its line, at the next character that is no blank. -/
def joinLines? (cs : List Char) : Option (List Char) :=
  (newline? (skipBlanks cs)).map fun rest => rest.dropWhile Json.isSpace

/-- A basic string of several lines behind its opening quotes, in reverse, and the rest behind the
closing ones. Up to two quotes more than the closing three belong to the string. -/
def readLongBasicTail : Nat → List Char → List Char → Option (List Char × List Char)
  | 0, _, _ => none
  | fuel + 1, read, cs =>
    match cs with
    | [] => none
    -- The longest run of quotes is tried first: its last three close the string.
    | '"' :: '"' :: '"' :: '"' :: '"' :: rest => some ('"' :: '"' :: read, rest)
    | '"' :: '"' :: '"' :: '"' :: rest => some ('"' :: read, rest)
    | '"' :: '"' :: '"' :: rest => some (read, rest)
    | '\\' :: rest =>
      match joinLines? rest with
      | some rest => readLongBasicTail fuel read rest
      | none => do
        let (c, rest) ← readEscape rest
        readLongBasicTail fuel (c :: read) rest
    | c :: rest =>
      match newline? (c :: rest) with
      | some rest => readLongBasicTail fuel ('\n' :: read) rest
      | none => if isPlain c then readLongBasicTail fuel (c :: read) rest else none

/-- A literal string behind its opening apostrophe, and the rest behind the closing one. -/
def readLiteral (cs : List Char) : Option (String × List Char) :=
  let inside (c : Char) : Bool := isPlain c && c != apostrophe
  match cs.dropWhile inside with
  | '\x27' :: rest => some (String.ofList (cs.takeWhile inside), rest)
  | _ => none

/-- A literal string of several lines behind its opening apostrophes, in reverse, and the rest
behind the closing ones. -/
def readLongLiteralTail : Nat → List Char → List Char → Option (List Char × List Char)
  | 0, _, _ => none
  | fuel + 1, read, cs =>
    match cs with
    | [] => none
    | '\x27' :: '\x27' :: '\x27' :: '\x27' :: '\x27' :: rest =>
      some (apostrophe :: apostrophe :: read, rest)
    | '\x27' :: '\x27' :: '\x27' :: '\x27' :: rest => some (apostrophe :: read, rest)
    | '\x27' :: '\x27' :: '\x27' :: rest => some (read, rest)
    | c :: rest =>
      match newline? (c :: rest) with
      | some rest => readLongLiteralTail fuel ('\n' :: read) rest
      | none => if isPlain c then readLongLiteralTail fuel (c :: read) rest else none

/-- The text that was read in reverse, and the rest. -/
def finish : Option (List Char × List Char) → Option (String × List Char)
  | some (read, rest) => some (String.ofList read.reverse, rest)
  | none => none

/-- Drops a newline. -/
def skipNewline (cs : List Char) : List Char := (newline? cs).getD cs

/-- A string on one line, and the rest. -/
def readShortString : List Char → Option (String × List Char)
  | '"' :: rest => finish (readBasicTail (rest.length + 1) [] rest)
  | '\x27' :: rest => readLiteral rest
  | _ => none

/-- A string of any form, and the rest. -/
def readString : List Char → Option (String × List Char)
  | '"' :: '"' :: '"' :: rest =>
    finish (readLongBasicTail (rest.length + 1) [] (skipNewline rest))
  | '\x27' :: '\x27' :: '\x27' :: rest =>
    finish (readLongLiteralTail (rest.length + 1) [] (skipNewline rest))
  | cs => readShortString cs

/-! ## Keys -/

/-- A dotted key: the tables on the way to a name, and the name. -/
structure Key where
  path : List String
  name : String

namespace Key

/-- All parts of a key. -/
def parts (k : Key) : List String := k.path ++ [k.name]

end Key

/-- A character of a key without quotes. -/
def isBareKeyChar (c : Char) : Bool := c.isAlphanum || c == '-' || c == '_'

/-- One part of a key, and the rest. -/
def readKeyPart (cs : List Char) : Option (String × List Char) :=
  match cs.takeWhile isBareKeyChar with
  | [] => readShortString cs
  | name => some (String.ofList name, cs.dropWhile isBareKeyChar)

/-- A key with the blanks around its parts, and the rest; `fuel` bounds the parts. -/
def readKeyParts : Nat → List Char → Option (Key × List Char)
  | 0, _ => none
  | fuel + 1, cs => do
    let (name, rest) ← readKeyPart (skipBlanks cs)
    match skipBlanks rest with
    | '.' :: rest => do
      let (key, rest) ← readKeyParts fuel rest
      some (⟨name :: key.path, key.name⟩, rest)
    | rest => some (⟨[], name⟩, rest)

/-- The most parts of a key and the deepest nesting of arrays and tables in a value. -/
def maxNesting : Nat := 79

/-- A key, and the rest behind its last blank. -/
def readKey (cs : List Char) : Option (Key × List Char) := readKeyParts maxNesting cs

end Klaxon.Toml
