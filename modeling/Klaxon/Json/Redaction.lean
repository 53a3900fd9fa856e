import Klaxon.Json.Basic
import Klaxon.Text.CaseFold
import Klaxon.Text.Occurrence

/-!
# Hiding credentials

`redact` replaces the values of members whose name speaks of a credential, at any depth, and keeps
everything else.
-/

namespace Klaxon.Json

/-- The words that mark a name as that of a credential. -/
def credentialWords : List String :=
  ["password", "passwd", "pwd", "token", "secret", "api_key", "apikey", "credentials"]

/-- Whether the lower case of a name contains one of the credential words. -/
def isSensitive (name : String) : Bool :=
  let folded := Text.foldCase name.toList
  credentialWords.any fun word => Text.containsWord word.toList folded

/-- What is put in the place of a credential. -/
def redacted : Json := .string "***"

mutual

/-- Hides the credentials in a value. -/
def redact : Json → Json
  | .object members => .object (redactMembers members)
  | .array items => .array (redactItems items)
  | j => j

/-- Hides the credentials in items. -/
def redactItems : List Json → List Json
  | [] => []
  | x :: xs => redact x :: redactItems xs

/-- Hides the credentials among members. -/
def redactMembers : List (String × Json) → List (String × Json)
  | [] => []
  -- A credential is hidden as a whole, also where it is an object or an array.
  | (k, v) :: rest => (k, if isSensitive k then redacted else redact v) :: redactMembers rest

end

end Klaxon.Json
