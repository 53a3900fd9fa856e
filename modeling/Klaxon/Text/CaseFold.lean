/-!
# Case folding against ASCII words

`foldCase` lower-cases a text far enough to compare it with words of small ASCII letters. Outside
ASCII only two characters have an ASCII letter in their lower case, U+0130 and U+212A, so a text
contains or equals an ASCII word after this fold exactly when it does after the full lower-case
mapping of Unicode.
-/

namespace Klaxon.Text

/-- The lower case of a character, as far as ASCII letters appear in it. -/
def foldChar (c : Char) : List Char :=
  if c == '\u0130' then ['i', '\u0307']
  else if c == '\u212a' then ['k']
  else [c.toLower]

/-- Lower-cases a text, as far as ASCII letters appear in the result. -/
def foldCase (cs : List Char) : List Char := cs.flatMap foldChar

/-- An ASCII capital folds to its small letter, and a small letter to itself. -/
theorem foldChar_of_ascii {c : Char} (h : c.toNat < 128) : foldChar c = [c.toLower] := by
  have h₁ : (c == '\u0130') = false := by
    rw [beq_eq_false_iff_ne]
    rintro rfl
    exact absurd h (by decide)
  have h₂ : (c == '\u212a') = false := by
    rw [beq_eq_false_iff_ne]
    rintro rfl
    exact absurd h (by decide)
  simp [foldChar, h₁, h₂]

end Klaxon.Text
