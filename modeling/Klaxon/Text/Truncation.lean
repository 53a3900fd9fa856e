/-!
# Cutting a text to a number of bytes

A text longer than a limit of UTF-8 bytes is cut after the last whole character that still fits and
marked as cut. `takeBytes` is that cut: a prefix (`takeBytes_prefix`) of at most the given size
(`utf8Length_takeBytes_le`).
-/

namespace Klaxon.Text

/-- The size of a list of characters in UTF-8 bytes. -/
def utf8Length : List Char → Nat
  | [] => 0
  | c :: cs => c.utf8Size + utf8Length cs

/-- The longest prefix of whole characters that has at most `limit` bytes. -/
def takeBytes : Nat → List Char → List Char
  | _, [] => []
  | limit, c :: cs => if c.utf8Size ≤ limit then c :: takeBytes (limit - c.utf8Size) cs else []

/-- What is written behind a text that was cut. -/
def truncationMark : List Char := "... [truncated]".toList

/-- A text of at most `limit` bytes as it is, a longer one cut and marked. -/
def truncateChars (limit : Nat) (cs : List Char) : List Char :=
  if utf8Length cs ≤ limit then cs else takeBytes limit cs ++ truncationMark

/-- `truncateChars` on strings. -/
def truncate (s : String) (limit : Nat) : String :=
  String.ofList (truncateChars limit s.toList)

/-- The size above which a provider's answer is cut before it is kept. -/
def maxKeptBytes : Nat := 4000

/-- The cut is a prefix of the text. -/
theorem takeBytes_prefix (limit : Nat) (cs : List Char) : takeBytes limit cs <+: cs := by
  induction cs generalizing limit with
  | nil => exact List.nil_prefix
  | cons c cs ih =>
    rw [takeBytes]
    split
    · exact List.prefix_cons_inj c |>.mpr (ih _)
    · exact List.nil_prefix

/-- The cut fits the limit. -/
theorem utf8Length_takeBytes_le (limit : Nat) (cs : List Char) :
    utf8Length (takeBytes limit cs) ≤ limit := by
  induction cs generalizing limit with
  | nil => exact Nat.zero_le _
  | cons c cs ih =>
    rw [takeBytes]
    split
    · have := ih (limit - c.utf8Size)
      simp only [utf8Length]
      omega
    · exact Nat.zero_le _

end Klaxon.Text
