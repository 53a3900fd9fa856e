/-!
# Occurrences of a word

`containsWord word cs` tells whether `word` occurs in `cs` as a run of consecutive characters, that
is, as an infix (`containsWord_iff`).
-/

namespace Klaxon.Text

/-- Whether `word` occurs in a text. -/
def containsWord (word : List Char) : List Char → Bool
  | [] => word.isEmpty
  | c :: cs => word.isPrefixOf (c :: cs) || containsWord word cs

/-- A word occurs in a text exactly when it is an infix of it. -/
theorem containsWord_iff {word cs : List Char} : containsWord word cs = true ↔ word <:+: cs := by
  induction cs with
  | nil => rw [containsWord, List.isEmpty_iff, List.infix_nil]
  | cons c cs ih =>
    rw [containsWord, Bool.or_eq_true, ih, List.isPrefixOf_iff_prefix, List.infix_cons_iff]

end Klaxon.Text
