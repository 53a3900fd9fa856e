import Klaxon.Decimal.Nearest
import Klaxon.Json.Reader

/-!
# Numbers and truth values of a TOML document

A whole number is a signed word of 64 bits, in decimal digits or, without a sign, in hexadecimal,
octal or binary ones. Every other number is the double nearest to it; one above the range is
refused, and one below it is minus infinity. Underscores may stand between digits.
-/

namespace Klaxon.Toml

/-- The digits of a run, in which single underscores may stand between two of them. -/
def joinDigits (isDigit : Char → Bool) : List Char → Option (List Char)
  | [] => none
  | [c] => if isDigit c then some [c] else none
  | c :: '_' :: rest =>
    if isDigit c then (joinDigits isDigit rest).map (c :: ·) else none
  | c :: rest => if isDigit c then (joinDigits isDigit rest).map (c :: ·) else none

/-- A whole number, if it is a signed word of 64 bits. -/
def wholeNumber? (n : Int) : Option Json :=
  if -Int.pow 2 63 ≤ n ∧ n < Int.pow 2 63 then some (.int n) else none

/-- The whole number that digits of a base write. -/
def ofDigits? (base : Nat) (cs : List Char) : Option Json := do
  let isDigit (c : Char) : Bool := (Json.hexValue? c).any (· < base)
  let digits ← joinDigits isDigit cs
  wholeNumber? (digits.foldl (fun n c => n * base + (Json.hexValue? c).getD 0) 0 : Nat)

/-- A sign, and the rest. -/
def splitSign : List Char → Bool × List Char
  | '-' :: rest => (true, rest)
  | '+' :: rest => (false, rest)
  | cs => (false, cs)

/-- The decimal digits before the point, which do not start with a needless zero. -/
def wholePart? (cs : List Char) : Option (List Char) :=
  match cs with
  | ['0'] => some ['0']
  | '0' :: _ => none
  | _ => joinDigits Char.isDigit cs

/-- An exponent behind its letter. -/
def exponent? (cs : List Char) : Option Int := do
  let (negative, rest) := splitSign cs
  let n : Int := Json.natOfDigits (← joinDigits Char.isDigit rest)
  some (if negative then -n else n)

/-- A double with its sign. -/
def signed (negative : Bool) (f : Float) : Float := if negative then -f else f

/-- The double of the parts of a number. -/
def double? (negative : Bool) (digits : List Char) (exponent : Int) : Option Json :=
  let f := Decimal.nearest (Json.natOfDigits digits) exponent
  if f.isInf && !negative then none else some (.float (signed negative f))

/-- A decimal number behind its sign. -/
def decimal? (negative : Bool) (cs : List Char) : Option Json := do
  let inWhole (c : Char) : Bool := c != '.' && c != 'e' && c != 'E'
  let inFraction (c : Char) : Bool := c != 'e' && c != 'E'
  let whole ← wholePart? (cs.takeWhile inWhole)
  match cs.dropWhile inWhole with
  | [] =>
    let n : Int := Json.natOfDigits whole
    wholeNumber? (if negative then -n else n)
  | '.' :: rest => do
    let fraction ← joinDigits Char.isDigit (rest.takeWhile inFraction)
    let exponent ← match rest.dropWhile inFraction with
      | [] => some 0
      | _ :: rest => exponent? rest
    -- Point and exponent together only move the exponent.
    double? negative (whole ++ fraction) (exponent - fraction.length)
  | _ :: rest => do double? negative whole (← exponent? rest)

/-- The number or truth value that a word writes. -/
def ofWord? (word : List Char) : Option Json :=
  if word == "true".toList then some (.bool true)
  else if word == "false".toList then some (.bool false)
  else
    match word with
    | '0' :: 'x' :: rest => ofDigits? 16 rest
    | '0' :: 'o' :: rest => ofDigits? 8 rest
    | '0' :: 'b' :: rest => ofDigits? 2 rest
    | _ =>
      let (negative, rest) := splitSign word
      if rest == "inf".toList then some (.float (signed negative (1.0 / 0.0)))
      else if rest == "nan".toList then some (.float (signed negative (0.0 / 0.0)))
      else decimal? negative rest

/-- A character of a number or truth value. -/
def isWordChar (c : Char) : Bool :=
  c.isAlphanum || c == '_' || c == '+' || c == '-' || c == '.'

/-- A number or truth value, and the rest. -/
def readWord (cs : List Char) : Option (Json × List Char) :=
  (ofWord? (cs.takeWhile isWordChar)).map fun value => (value, cs.dropWhile isWordChar)

end Klaxon.Toml
