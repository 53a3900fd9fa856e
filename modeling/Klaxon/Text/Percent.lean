/-!
# Percent encoding

`percentEncode` writes a text so that it can stand in the query of a URL: letters, digits and `-_.~`
stay, and every byte of the other characters becomes `%` and two hexadecimal digits.
-/

namespace Klaxon.Text

/-- Whether a character stands for itself in a query. -/
def isUnreserved (c : Char) : Bool :=
  c.isAlphanum || c == '-' || c == '_' || c == '.' || c == '~'

/-- A byte as a percent sign and two digits. -/
def percentByte (b : UInt8) : List Char :=
  let digit (n : Nat) : Char := (Nat.digitChar n).toUpper
  ['%', digit (b.toNat / 16), digit (b.toNat % 16)]

/-- How a character stands in a query. -/
def percentChar (c : Char) : List Char :=
  if isUnreserved c then [c] else (String.singleton c).toUTF8.toList.flatMap percentByte

/-- A text as it stands in a query. -/
def percentEncode (s : String) : String := String.ofList (s.toList.flatMap percentChar)

end Klaxon.Text
