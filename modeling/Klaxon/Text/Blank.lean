/-!
# Blank characters and trimming

A character is blank when Unicode gives it the property `White_Space`. `trim` takes the blanks off
both ends of a text; `trimStart_cons_of_not_blank` says that a front without blanks is left alone.
Zero-width characters such as U+200B are not blank.
-/

namespace Klaxon.Text

/-- The characters with the property `White_Space`. -/
def isBlank (c : Char) : Bool :=
  let n := c.toNat
  (9 ≤ n && n ≤ 13) || n == 0x20 || n == 0x85 || n == 0xA0 || n == 0x1680 ||
    (0x2000 ≤ n && n ≤ 0x200A) || n == 0x2028 || n == 0x2029 || n == 0x202F || n == 0x205F ||
    n == 0x3000

/-- Drops the blanks at the front. -/
def trimStart (cs : List Char) : List Char := cs.dropWhile isBlank

/-- Drops the blanks at the back. -/
def trimEnd (cs : List Char) : List Char := (cs.reverse.dropWhile isBlank).reverse

/-- Drops the blanks at both ends. -/
def trimChars (cs : List Char) : List Char := trimEnd (trimStart cs)

/-- Drops the blanks at both ends of a string. -/
def trim (s : String) : String := String.ofList (trimChars s.toList)

/-- A string is blank when nothing but blanks is in it. -/
def isBlankText (s : String) : Bool := (trimChars s.toList).isEmpty

/-- A text that starts with a character that is not blank is kept by `trimStart`. -/
theorem trimStart_cons_of_not_blank {c : Char} {cs : List Char} (h : isBlank c = false) :
    trimStart (c :: cs) = c :: cs := by
  simp [trimStart, h]

end Klaxon.Text
