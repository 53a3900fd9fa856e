import Mathlib.Data.List.TakeWhile
import Klaxon.Text.Blank

/-!
# Trimming

What trimming takes away is said by three laws. Nothing is left exactly of a text that is blank
(`trimChars_eq_nil_iff`). A text stays as it is exactly if no blank is at either end of it
(`isTrimmed_iff`). And a character that is not blank parts the text: the side in front of it is
trimmed only at its front, and the side behind it only at its back (`trimStart_append_cons`,
`trimEnd_append_cons`).
-/

namespace Klaxon.Text

/-! ## Blank texts -/

/-- Nothing is left from the front exactly of a text that is blank. -/
theorem trimStart_eq_nil_iff {cs : List Char} : trimStart cs = [] ↔ ∀ c ∈ cs, isBlank c = true :=
  List.dropWhile_eq_nil_iff

/-- Nothing is left from the back exactly of a text that is blank. -/
theorem trimEnd_eq_nil_iff {cs : List Char} : trimEnd cs = [] ↔ ∀ c ∈ cs, isBlank c = true := by
  rw [trimEnd, List.reverse_eq_nil_iff, List.dropWhile_eq_nil_iff]
  simp only [List.mem_reverse]

/-- Nothing is left by trimming at both ends exactly of a text that is blank. -/
theorem trimChars_eq_nil_iff {cs : List Char} :
    trimChars cs = [] ↔ ∀ c ∈ cs, isBlank c = true := by
  rw [trimChars, trimEnd_eq_nil_iff]
  constructor
  · intro h c hc
    -- A character is dropped at the front, or it is still there and is dropped at the back.
    rw [← List.takeWhile_append_dropWhile (p := isBlank) (l := cs)] at hc
    rcases List.mem_append.mp hc with hfront | hback
    · exact List.all_eq_true.mp List.all_takeWhile c hfront
    · exact h c hback
  · intro h c hc
    exact h c ((List.dropWhile_sublist isBlank).mem hc)

/-- A text is blank if all of its characters are. -/
theorem isBlankText_iff (s : String) :
    isBlankText s = true ↔ ∀ c ∈ s.toList, isBlank c = true := by
  rw [isBlankText, List.isEmpty_iff, trimChars_eq_nil_iff]

/-! ## Trimmed texts -/

/-- No blank is at either end of a text. -/
structure IsTrimmed (s : String) : Prop where
  head : ∀ c ∈ s.toList.head?, isBlank c = false
  last : ∀ c ∈ s.toList.getLast?, isBlank c = false

/-- Trimming at the front only leaves characters out. -/
theorem trimStart_sublist (cs : List Char) : (trimStart cs).Sublist cs :=
  List.dropWhile_sublist isBlank

/-- Trimming at the back only leaves characters out. -/
theorem trimEnd_sublist (cs : List Char) : (trimEnd cs).Sublist cs := by
  have h := (trimStart_sublist cs.reverse).reverse
  rwa [List.reverse_reverse] at h

/-- Trimming at the front changes nothing exactly if the first character is no blank. -/
theorem trimStart_eq_self_iff {cs : List Char} :
    trimStart cs = cs ↔ ∀ c ∈ cs.head?, isBlank c = false := by
  cases cs with
  | nil => simp [trimStart]
  | cons c cs =>
    cases hblank : isBlank c with
    | false => simp [trimStart_cons_of_not_blank hblank, hblank]
    | true =>
      -- A blank in front is dropped, and what is left is shorter than the text.
      have hle := (trimStart_sublist cs).length_le
      have hdrop : trimStart (c :: cs) = trimStart cs := List.dropWhile_cons_of_pos hblank
      have hne : trimStart (c :: cs) ≠ c :: cs := by
        intro h
        rw [← hdrop, h, List.length_cons] at hle
        omega
      simp [hne, hblank]

/-- Trimming at the back changes nothing exactly if the last character is no blank. -/
theorem trimEnd_eq_self_iff {cs : List Char} :
    trimEnd cs = cs ↔ ∀ c ∈ cs.getLast?, isBlank c = false := by
  rw [← List.head?_reverse, ← trimStart_eq_self_iff]
  exact List.reverse_eq_iff

/-- Trimming leaves a trimmed text alone. -/
theorem IsTrimmed.trimChars_eq {s : String} (h : IsTrimmed s) : trimChars s.toList = s.toList := by
  rw [trimChars, trimStart_eq_self_iff.mpr h.head, trimEnd_eq_self_iff.mpr h.last]

/-- Trimming leaves exactly the texts alone that are trimmed. -/
theorem isTrimmed_iff {s : String} : IsTrimmed s ↔ trim s = s := by
  constructor
  · intro h
    rw [trim, h.trimChars_eq, String.ofList_toList]
  · intro h
    have hchars : trimEnd (trimStart s.toList) = s.toList := by
      have htoList := congrArg String.toList h
      rwa [trim, String.toList_ofList] at htoList
    -- Nothing is lost in two steps, so nothing is lost in either of them.
    have hstart : trimStart s.toList = s.toList := by
      have hsub := trimEnd_sublist (trimStart s.toList)
      rw [hchars] at hsub
      exact (trimStart_sublist s.toList).eq_of_length_le hsub.length_le
    rw [hstart] at hchars
    exact ⟨trimStart_eq_self_iff.mp hstart, trimEnd_eq_self_iff.mp hchars⟩

/-! ## Around a character that is not blank -/

variable {c : Char}

/-- What is behind a character that is not blank is out of reach from the front. -/
theorem trimStart_append_cons (h : isBlank c = false) (as bs : List Char) :
    trimStart (as ++ c :: bs) = trimStart as ++ c :: bs := by
  have hkept : (c :: bs).dropWhile isBlank = c :: bs := trimStart_cons_of_not_blank h
  simp only [trimStart]
  rw [List.dropWhile_append, hkept]
  split
  · -- The front was blank throughout, so that the character comes first.
    next hempty => rw [List.isEmpty_iff.mp hempty, List.nil_append]
  · rfl

/-- What is in front of a character that is not blank is out of reach from the back. -/
theorem trimEnd_append_cons (h : isBlank c = false) (as bs : List Char) :
    trimEnd (as ++ c :: bs) = as ++ c :: trimEnd bs := by
  have hreverse : (as ++ c :: bs).reverse = bs.reverse ++ c :: as.reverse := by simp
  have hstart := trimStart_append_cons h bs.reverse as.reverse
  simp only [trimStart] at hstart
  simp only [trimEnd]
  rw [hreverse, hstart]
  simp

/-- The dot between the segments of a path is no blank. -/
theorem isBlank_dot : isBlank '.' = false := rfl

/-- Around a dot each side is trimmed by itself. -/
theorem trimChars_append_dot (as bs : List Char) :
    trimChars (as ++ '.' :: bs) = trimStart as ++ '.' :: trimEnd bs := by
  rw [trimChars, trimStart_append_cons isBlank_dot, trimEnd_append_cons isBlank_dot]

end Klaxon.Text
