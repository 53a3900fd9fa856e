import Klaxon.Text.Truncation

/-!
# Cutting a text again

The mark behind a text that was cut makes it longer than the limit, so that a second cut goes
through the mark. Where the limit is between two characters the second cut ends where the first one
did. Otherwise the first cut left up to three bytes free, and the second one puts a dot of the mark
into each of them. `cutsAgain` says so; a third cut changes nothing any more.

Everything follows from the cut of a text with the mark behind it (`truncateChars_append_mark`).
-/

namespace Klaxon.Text

/-- A limit of bytes is between two characters of a text, or at one of its ends. -/
def IsBoundary (limit : Nat) (cs : List Char) : Prop :=
  ∃ front, front <+: cs ∧ utf8Length front = limit

/-- What a second cut does. -/
structure CutsAgain (s : String) (limit : Nat) : Prop where
  /-- It changes nothing exactly if the text fits, or is cut at the limit itself. -/
  same_iff : truncate (truncate s limit) limit = truncate s limit ↔
    utf8Length s.toList ≤ limit ∨ IsBoundary limit s.toList
  /-- The bytes that the first cut left free are filled with dots. -/
  dots : limit < utf8Length s.toList →
    truncate (truncate s limit) limit = String.ofList (takeBytes limit s.toList ++
      List.replicate (limit - utf8Length (takeBytes limit s.toList)) '.' ++ truncationMark)
  /-- The first cut leaves three bytes free at most. -/
  free : limit < utf8Length s.toList → limit ≤ utf8Length (takeBytes limit s.toList) + 3
  /-- A third cut changes nothing. -/
  settled : truncate (truncate (truncate s limit) limit) limit = truncate (truncate s limit) limit

/-! ## Cuts and sizes -/

/-- Sizes add up. -/
theorem utf8Length_append (as bs : List Char) :
    utf8Length (as ++ bs) = utf8Length as + utf8Length bs := by
  induction as with
  | nil => exact (Nat.zero_add _).symm
  | cons a as ih => rw [List.cons_append, utf8Length, utf8Length, ih, Nat.add_assoc]

/-- A dot takes one byte. -/
theorem utf8Length_replicate_dot (k : Nat) : utf8Length (List.replicate k '.') = k := by
  induction k with
  | zero => rfl
  | succ k ih =>
    have hone : '.'.utf8Size = 1 := rfl
    rw [List.replicate_succ, utf8Length, ih, hone, Nat.add_comm]

/-- No character takes no bytes, so a cut at nothing keeps nothing. -/
theorem takeBytes_zero (cs : List Char) : takeBytes 0 cs = [] := by
  cases cs with
  | nil => rfl
  | cons c cs => rw [takeBytes, if_neg (Nat.not_le.mpr c.utf8Size_pos)]

/-- A cut behind a text that fits is a cut of what follows. -/
theorem takeBytes_append {limit : Nat} {as : List Char} (h : utf8Length as ≤ limit)
    (bs : List Char) : takeBytes limit (as ++ bs) = as ++ takeBytes (limit - utf8Length as) bs := by
  induction as generalizing limit with
  | nil => rfl
  | cons a as ih =>
    rw [utf8Length] at h
    -- The character in front fits, and what it takes is taken from the limit of the rest.
    have has : utf8Length as ≤ limit - a.utf8Size := by omega
    rw [List.cons_append, takeBytes, if_pos (by omega), ih has, utf8Length, Nat.sub_sub]
    rfl

/-- The next character does not fit behind a cut. -/
theorem le_utf8Length_takeBytes {limit : Nat} {cs : List Char} (h : limit < utf8Length cs) :
    limit ≤ utf8Length (takeBytes limit cs) + 3 := by
  induction cs generalizing limit with
  | nil => exact absurd h (Nat.not_lt_zero limit)
  | cons c cs ih =>
    rw [utf8Length] at h
    have hfour := c.utf8Size_le_four
    rw [takeBytes]
    split
    · -- The first character fits, and the cut is in the rest.
      have hrest : limit - c.utf8Size ≤ utf8Length (takeBytes (limit - c.utf8Size) cs) + 3 :=
        ih (by omega)
      rw [utf8Length]
      omega
    · -- It does not fit, so that the limit is below the four bytes of the largest character.
      omega

/-- A limit is a boundary exactly if the cut there uses all of its bytes. -/
theorem isBoundary_iff {limit : Nat} {cs : List Char} :
    IsBoundary limit cs ↔ utf8Length (takeBytes limit cs) = limit := by
  constructor
  · rintro ⟨front, ⟨rest, rfl⟩, hfront⟩
    rw [takeBytes_append (Nat.le_of_eq hfront), hfront, Nat.sub_self, takeBytes_zero,
      List.append_nil, hfront]
  · intro h
    exact ⟨takeBytes limit cs, takeBytes_prefix limit cs, h⟩

/-! ## The mark -/

/-- The mark takes fifteen bytes, far more than a first cut leaves free. -/
theorem utf8Length_truncationMark : utf8Length truncationMark = 15 := rfl

/-- The mark begins with three dots. -/
theorem takeBytes_truncationMark {k : Nat} (h : k ≤ 3) :
    takeBytes k truncationMark = List.replicate k '.' := by
  match k with
  | 0 | 1 | 2 | 3 => rfl

/-- A text that fits stays as it is. -/
theorem truncateChars_of_le {limit : Nat} {cs : List Char} (h : utf8Length cs ≤ limit) :
    truncateChars limit cs = cs := by
  rw [truncateChars, if_pos h]

/-- A longer text is cut, and the mark is put behind what is kept. -/
theorem truncateChars_of_lt {limit : Nat} {cs : List Char} (h : limit < utf8Length cs) :
    truncateChars limit cs = takeBytes limit cs ++ truncationMark := by
  rw [truncateChars, if_neg (Nat.not_le.mpr h)]

/-- A cut makes no text empty: the mark is always left. -/
theorem truncateChars_eq_nil_iff {limit : Nat} {cs : List Char} :
    truncateChars limit cs = [] ↔ cs = [] := by
  by_cases hfits : utf8Length cs ≤ limit
  · rw [truncateChars_of_le hfits]
  · have hlong : limit < utf8Length cs := Nat.not_le.mp hfits
    rw [truncateChars_of_lt hlong, List.append_eq_nil_iff]
    constructor
    · rintro ⟨-, hmark⟩
      exact absurd hmark (by decide)
    · rintro rfl
      exact absurd hlong (Nat.not_lt_zero limit)

/-- A text is empty after a cut exactly if it was empty before. -/
theorem isEmpty_truncate (s : String) (limit : Nat) : (truncate s limit).isEmpty = s.isEmpty := by
  rw [Bool.eq_iff_iff, String.isEmpty_iff, String.isEmpty_iff, ← String.toList_eq_nil_iff,
    ← String.toList_eq_nil_iff, truncate, String.toList_ofList, truncateChars_eq_nil_iff]

/-- An empty text fits every limit. -/
theorem utf8Length_of_isEmpty {s : String} (h : s.isEmpty = true) (limit : Nat) :
    utf8Length s.toList ≤ limit := by
  rw [String.isEmpty_iff.mp h]
  exact Nat.zero_le limit

/-- A text with the mark behind it that ends shortly before the limit is cut in the mark. -/
theorem truncateChars_append_mark {limit : Nat} {kept : List Char}
    (hle : utf8Length kept ≤ limit) (hfree : limit ≤ utf8Length kept + 3) :
    truncateChars limit (kept ++ truncationMark) =
      kept ++ List.replicate (limit - utf8Length kept) '.' ++ truncationMark := by
  have hlong : limit < utf8Length (kept ++ truncationMark) := by
    rw [utf8Length_append, utf8Length_truncationMark]
    omega
  rw [truncateChars_of_lt hlong, takeBytes_append hle, takeBytes_truncationMark (by omega)]

/-! ## The second cut and the third -/

variable {limit : Nat} {cs : List Char}

/-- The second cut keeps what the first one kept and as many dots of its mark as there are free
bytes. -/
theorem truncateChars_truncateChars (h : limit < utf8Length cs) :
    truncateChars limit (truncateChars limit cs) = takeBytes limit cs ++
      List.replicate (limit - utf8Length (takeBytes limit cs)) '.' ++ truncationMark := by
  rw [truncateChars_of_lt h]
  exact truncateChars_append_mark (utf8Length_takeBytes_le limit cs) (le_utf8Length_takeBytes h)

/-- The second cut changes nothing exactly if the first one did not cut, or cut at the limit itself.
-/
theorem truncateChars_eq_iff :
    truncateChars limit (truncateChars limit cs) = truncateChars limit cs ↔
      utf8Length cs ≤ limit ∨ IsBoundary limit cs := by
  by_cases hfits : utf8Length cs ≤ limit
  · rw [truncateChars_of_le hfits, truncateChars_of_le hfits]
    exact ⟨fun _ => .inl hfits, fun _ => rfl⟩
  · have hlong : limit < utf8Length cs := Nat.not_le.mp hfits
    have hle := utf8Length_takeBytes_le limit cs
    rw [truncateChars_truncateChars hlong, truncateChars_of_lt hlong, List.append_left_inj,
      List.append_right_eq_self, List.replicate_eq_nil_iff, isBoundary_iff]
    -- No dot is put in where the first cut left no byte free.
    constructor
    · intro hnone
      exact .inr (by omega)
    · rintro (hfit | hboundary)
      · exact absurd hfit hfits
      · omega

/-- The third cut changes nothing, whatever the text is. -/
theorem truncateChars_settled :
    truncateChars limit (truncateChars limit (truncateChars limit cs)) =
      truncateChars limit (truncateChars limit cs) := by
  by_cases hfits : utf8Length cs ≤ limit
  · simp only [truncateChars_of_le hfits]
  · have hlong : limit < utf8Length cs := Nat.not_le.mp hfits
    have hle := utf8Length_takeBytes_le limit cs
    rw [truncateChars_truncateChars hlong]
    generalize takeBytes limit cs = kept at hle
    -- With its dots the text reaches the limit, so that no byte is left free.
    have hfull : utf8Length (kept ++ List.replicate (limit - utf8Length kept) '.') = limit := by
      rw [utf8Length_append, utf8Length_replicate_dot]
      omega
    rw [truncateChars_append_mark (Nat.le_of_eq hfull) (by omega), hfull, Nat.sub_self,
      List.replicate_zero, List.append_nil]

/-- What a second cut does, for all texts and limits. -/
theorem cutsAgain (s : String) (limit : Nat) : CutsAgain s limit where
  same_iff := by
    simp only [truncate, String.toList_ofList, String.ofList_inj]
    exact truncateChars_eq_iff
  dots h := by
    simp only [truncate, String.toList_ofList]
    exact congrArg String.ofList (truncateChars_truncateChars h)
  free := le_utf8Length_takeBytes
  settled := by
    simp only [truncate, String.toList_ofList]
    exact congrArg String.ofList truncateChars_settled

/-- A second cut puts a dot of the mark into the byte that is left free in front of a character of
two bytes. -/
theorem truncate_truncate_ne : truncate (truncate "aéb" 2) 2 ≠ truncate "aéb" 2 := by decide

end Klaxon.Text
