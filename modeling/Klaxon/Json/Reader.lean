import Klaxon.Json.Basic

/-!
# Reading JSON text

`Json.ofText?` accepts exactly one value between blanks. Strings hold no control characters and no
lone surrogates, arrays and objects nest at most 127 deep, and of the members with one name the last
one counts.

A number without fraction and exponent is whole if it lies in `-2^63 .. 2^64 - 1`, save `-0`. Every
other number is a double: its significand is as many of its digits as fit in 64 bits, rounded to a
double and then multiplied or divided by a power of ten, rounded again. One too large for a double
is refused.
-/

namespace Klaxon.Json

/-- A blank between tokens. -/
def isSpace (c : Char) : Bool := c == ' ' || c == '\n' || c == '\t' || c == '\r'

/-- Drops the blanks before a token. -/
def skipSpaces (cs : List Char) : List Char := cs.dropWhile isSpace

/-- The value of a hexadecimal digit. -/
def hexValue? (c : Char) : Option Nat :=
  if '0' ≤ c && c ≤ '9' then some (c.toNat - '0'.toNat)
  else if 'a' ≤ c && c ≤ 'f' then some (c.toNat - 'a'.toNat + 10)
  else if 'A' ≤ c && c ≤ 'F' then some (c.toNat - 'A'.toNat + 10)
  else none

/-- The number of four hexadecimal digits, and the rest. -/
def readHex4 : List Char → Option (Nat × List Char)
  | a :: b :: c :: d :: rest => do
    let n := (← hexValue? a) * 4096 + (← hexValue? b) * 256 + (← hexValue? c) * 16 + (← hexValue? d)
    some (n, rest)
  | _ => none

/-- The character of a `\u` escape behind the `u`, and the rest. A high surrogate needs a low one
right behind it. -/
def readUnicodeEscape (cs : List Char) : Option (Char × List Char) := do
  let (n, rest) ← readHex4 cs
  -- A low surrogate does not come first.
  if 0xDC00 ≤ n && n ≤ 0xDFFF then none
  else if 0xD800 ≤ n && n ≤ 0xDBFF then
    match rest with
    | '\\' :: 'u' :: rest => do
      let (low, rest) ← readHex4 rest
      if 0xDC00 ≤ low && low ≤ 0xDFFF then
        some (Char.ofNat (0x10000 + (n - 0xD800) * 0x400 + (low - 0xDC00)), rest)
      else none
    | _ => none
  else some (Char.ofNat n, rest)

/-- The character that an escape of one letter stands for. -/
def shortEscape? (c : Char) : Option Char :=
  if c == '"' || c == '\\' || c == '/' then some c
  else if c == 'b' then some '\x08'
  else if c == 'f' then some '\x0c'
  else if c == 'n' then some '\n'
  else if c == 'r' then some '\r'
  else if c == 't' then some '\t'
  else none

/-- The text of a string behind its opening quote, in reverse, and the rest behind the closing
one. -/
def readStringTail : Nat → List Char → List Char → Option (List Char × List Char)
  | 0, _, _ => none
  | fuel + 1, read, cs =>
    match cs with
    | [] => none
    | '"' :: rest => some (read, rest)
    | '\\' :: 'u' :: rest => do
      let (c, rest) ← readUnicodeEscape rest
      readStringTail fuel (c :: read) rest
    | '\\' :: e :: rest => do readStringTail fuel ((← shortEscape? e) :: read) rest
    | c :: rest => if c.toNat < 0x20 then none else readStringTail fuel (c :: read) rest

/-- A string at its opening quote, and the rest. -/
def readString : List Char → Option (String × List Char)
  | '"' :: rest => do
    let (read, rest) ← readStringTail (rest.length + 1) [] rest
    some (String.ofList read.reverse, rest)
  | _ => none

/-- A significand of 64 bits with a power of ten. -/
structure Significand where
  value : Nat
  exponent : Int

/-- The value of a decimal digit. -/
def digitValue (c : Char) : Nat := c.toNat - '0'.toNat

/-- The greatest significand. -/
def maxSignificand : Nat := UInt64.size - 1

/-- Takes the digits before the point; the first that does not fit and all behind it only raise the
exponent. -/
def takeWhole : List Char → Significand → Significand
  | [], s => s
  | c :: cs, s =>
    let next := s.value * 10 + digitValue c
    if next ≤ maxSignificand then takeWhole cs ⟨next, s.exponent⟩
    else ⟨s.value, s.exponent + 1 + cs.length⟩

/-- Takes the digits behind the point; the first that does not fit and all behind it are dropped. -/
def takeFraction : List Char → Significand → Significand
  | [], s => s
  | c :: cs, s =>
    let next := s.value * 10 + digitValue c
    if next ≤ maxSignificand then takeFraction cs ⟨next, s.exponent - 1⟩ else s

/-- The power of ten as a double. -/
def powerOfTen (n : Nat) : Float := Float.ofScientific 1 false n

/-- Divides by `10 ^ 308` while the exponent is too small for one power of ten. -/
def descale : Nat → Float → Int → Float
  | 0, f, _ => f
  | fuel + 1, f, exponent =>
    -- The powers of ten up to this one are doubles that are not infinite.
    if -308 ≤ exponent then f / powerOfTen (-exponent).toNat
    else descale fuel (f / powerOfTen 308) (exponent + 308)

/-- The double of a significand, if it is not too large. -/
def Significand.toFloat? (s : Significand) : Option Float :=
  let f := (UInt64.ofNat s.value).toFloat
  if s.value = 0 then some 0.0
  -- The significand is at least one.
  else if 308 < s.exponent then none
  else if 0 ≤ s.exponent then
    let scaled := f * powerOfTen s.exponent.toNat
    if scaled.isInf then none else some scaled
  -- Nothing is left of a significand of 64 bits long before the fuel is used up.
  else some (descale 4 f s.exponent)

/-- Splits a text behind its leading decimal digits. -/
def spanDigits (cs : List Char) : List Char × List Char :=
  (cs.takeWhile Char.isDigit, cs.dropWhile Char.isDigit)

/-- The number that decimal digits write. -/
def natOfDigits (cs : List Char) : Nat := cs.foldl (fun n c => n * 10 + digitValue c) 0

/-- A fraction at its point: its digits, of which there is at least one, and the rest. -/
def readFraction : List Char → Option (Option (List Char) × List Char)
  | '.' :: rest =>
    let (digits, rest) := spanDigits rest
    if digits.isEmpty then none else some (some digits, rest)
  | cs => some (none, cs)

/-- An exponent at its letter, and the rest. -/
def readExponent : List Char → Option (Option Int × List Char)
  | [] => some (none, [])
  | c :: rest =>
    if c == 'e' || c == 'E' then
      let (negative, rest) := match rest with
        | '+' :: rest => (false, rest)
        | '-' :: rest => (true, rest)
        | rest => (false, rest)
      let (digits, rest) := spanDigits rest
      if digits.isEmpty then none
      else
        let n : Int := natOfDigits digits
        some (some (if negative then -n else n), rest)
    else some (none, c :: rest)

/-- The number with the given parts. -/
def numberOf? (negative : Bool) (whole : List Char) (fraction : Option (List Char))
    (exponent : Option Int) : Option Json :=
  let n := natOfDigits whole
  let isWhole := fraction.isNone && exponent.isNone &&
    -- With a sign zero is a double, since whole numbers know one zero only.
    (if negative then 0 < n && n ≤ Nat.pow 2 63 else n < UInt64.size)
  if isWhole then some (.int (if negative then -n else n))
  else do
    let s := takeFraction (fraction.getD []) (takeWhole whole ⟨0, 0⟩)
    let f ← Significand.toFloat? ⟨s.value, s.exponent + exponent.getD 0⟩
    some (.float (if negative then -f else f))

/-- A number behind its sign, and the rest. -/
def readNumber (negative : Bool) (cs : List Char) : Option (Json × List Char) := do
  let (whole, rest) := spanDigits cs
  let wellFormed := match whole with
    | [] => false
    | ['0'] => true
    | d :: _ => d != '0'
  if wellFormed then
    let (fraction, rest) ← readFraction rest
    let (exponent, rest) ← readExponent rest
    some (← numberOf? negative whole fraction exponent, rest)
  else none

/-- The rest behind a word. -/
def readWord (word : List Char) (cs : List Char) : Option (List Char) :=
  if word.isPrefixOf cs then some (cs.drop word.length) else none

mutual

/-- A value with at most `depth` levels of nesting, and the rest. -/
def readValue : Nat → Nat → List Char → Option (Json × List Char)
  | 0, _, _ => none
  | fuel + 1, depth, cs =>
    match skipSpaces cs with
    | [] => none
    | '"' :: rest => do
      let (s, rest) ← readString ('"' :: rest)
      some (.string s, rest)
    | '[' :: rest =>
      -- An array takes one level of nesting.
      match depth with
      | 0 => none
      | depth + 1 => do
        let (items, rest) ← match skipSpaces rest with
          | ']' :: rest => some ([], rest)
          | rest => readItems fuel depth rest
        some (.array items, rest)
    | '\x7b' :: rest => do
      let (members, rest) ← readObject fuel depth ('\x7b' :: rest)
      some (ofMembers members, rest)
    | '-' :: rest => readNumber true rest
    | c :: rest =>
      if c == 'n' then return (.null, ← readWord "null".toList (c :: rest))
      else if c == 't' then return (.bool true, ← readWord "true".toList (c :: rest))
      else if c == 'f' then return (.bool false, ← readWord "false".toList (c :: rest))
      else readNumber false (c :: rest)

/-- The items of an array from the first one on, and the rest behind the closing bracket. -/
def readItems : Nat → Nat → List Char → Option (List Json × List Char)
  | 0, _, _ => none
  | fuel + 1, depth, cs => do
    let (item, rest) ← readValue fuel depth cs
    match skipSpaces rest with
    | ',' :: rest => do
      let (items, rest) ← readItems fuel depth rest
      some (item :: items, rest)
    | ']' :: rest => some ([item], rest)
    | _ => none

/-- The members of an object at its opening brace, as they are written, and the rest. -/
def readObject : Nat → Nat → List Char → Option (List (String × Json) × List Char)
  | 0, _, _ => none
  | fuel + 1, depth, cs =>
    match depth, cs with
    | depth + 1, '\x7b' :: rest =>
      match skipSpaces rest with
      | '\x7d' :: rest => some ([], rest)
      | rest => readMembers fuel depth rest
    | _, _ => none

/-- The members of an object from the first one on, and the rest behind the closing brace. -/
def readMembers : Nat → Nat → List Char → Option (List (String × Json) × List Char)
  | 0, _, _ => none
  | fuel + 1, depth, cs => do
    let (name, rest) ← readString (skipSpaces cs)
    match skipSpaces rest with
    | ':' :: rest => do
      let (value, rest) ← readValue fuel depth rest
      match skipSpaces rest with
      | ',' :: rest => do
        let (members, rest) ← readMembers fuel depth rest
        some ((name, value) :: members, rest)
      | '\x7d' :: rest => some ([(name, value)], rest)
      | _ => none
    | _ => none

end

/-- The deepest nesting of arrays and objects. -/
def maxNesting : Nat := 127

/-- More steps than reading the text can take. -/
def readingFuel (cs : List Char) : Nat := 4 * cs.length + 4

/-- The value that a text writes. -/
def ofText? (text : String) : Option Json := do
  let cs := text.toList
  let (value, rest) ← readValue (readingFuel cs) maxNesting cs
  -- Nothing but blanks may stand behind the value.
  if (skipSpaces rest).isEmpty then some value else none

/-- The value that a text writes as a record: the members of the outermost object are kept as they
are written, also those of one name. -/
def recordOfText? (text : String) : Option Json := do
  let cs := skipSpaces text.toList
  match readObject (readingFuel cs) maxNesting cs with
  | some (members, rest) => if (skipSpaces rest).isEmpty then some (.object members) else none
  | none => ofText? text

end Klaxon.Json
