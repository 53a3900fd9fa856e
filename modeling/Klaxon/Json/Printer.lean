import Klaxon.Json.Basic
import Klaxon.Decimal.Layout

/-!
# Compact JSON text

`Json.render` writes a value without spaces, members in their order. A string keeps every character
as it is but the quote, the backslash and the control characters below U+0020. Doubles are written
in `Decimal.Layout.document`, and as `null` where they are not finite.
-/

namespace Klaxon.Json

/-- The hexadecimal digit of a number below 16. -/
def hexDigit (n : Nat) : Char := (Nat.digitChar n)

/-- How a character stands in a string. -/
def escape (c : Char) : List Char :=
  if c == '"' then ['\\', '"']
  else if c == '\\' then ['\\', '\\']
  else if c.toNat ≥ 0x20 then [c]
  else if c == '\x08' then ['\\', 'b']
  else if c == '\x0c' then ['\\', 'f']
  else if c == '\n' then ['\\', 'n']
  else if c == '\r' then ['\\', 'r']
  else if c == '\t' then ['\\', 't']
  else ['\\', 'u', '0', '0', hexDigit (c.toNat / 16), hexDigit (c.toNat % 16)]

/-- A string in quotes. -/
def quote (s : String) : String := String.ofList ('"' :: s.toList.flatMap escape ++ ['"'])

/-- A double. -/
def renderFloat (f : Float) : String :=
  if f.isFinite then Decimal.Layout.document.write f else "null"

mutual

/-- The compact text of a value. -/
def render : Json → String
  | .null => "null"
  | .bool b => if b then "true" else "false"
  | .int i => toString i
  | .float f => renderFloat f
  | .string s => quote s
  | .array items => "[" ++ String.intercalate "," (renderItems items) ++ "]"
  | .object members => "\x7b" ++ String.intercalate "," (renderMembers members) ++ "\x7d"

/-- The texts of items. -/
def renderItems : List Json → List String
  | [] => []
  | x :: xs => render x :: renderItems xs

/-- The texts of members. -/
def renderMembers : List (String × Json) → List String
  | [] => []
  | (k, v) :: rest => (quote k ++ ":" ++ render v) :: renderMembers rest

end

end Klaxon.Json
