import Mathlib.Data.String.Basic
import Klaxon.Proofs.Text.Cuts

/-!
# A text is cut at the last boundary

A position in the bytes of a text is a boundary if a character begins there or the text ends.
`lastBoundary` goes back from a limit, byte by byte, until it is at one. `truncate_cutsAtBoundary`
says that a text over the limit is cut there, and that what is kept is the longest prefix of whole
characters that fits the limit.

The boundaries are the sizes of the prefixes of whole characters (`isBoundary_iff_isValid`). So the
last boundary up to the limit is the size of the longest prefix that fits, and that prefix is the
one that `takeBytes` collects from the front (`utf8Length_takeBytes_eq`).
-/

namespace Klaxon.Text

/-- The search for a boundary, from a position in the bytes of a text backwards. -/
def lastBoundary (s : String) : Nat → Nat
  | 0 => 0
  | n + 1 => if String.Pos.Raw.isValid s ⟨n + 1⟩ then n + 1 else lastBoundary s n

/-- A prefix of whole characters fits a limit of bytes, and every other one that fits is within
it. -/
structure IsLongestPrefix (s : String) (limit : Nat) (kept : String) : Prop where
  isPrefix : ∃ rest, s = kept ++ rest
  fits : kept.utf8ByteSize ≤ limit
  longest : ∀ front rest, s = front ++ rest → front.utf8ByteSize ≤ limit →
    ∃ more, kept = front ++ more

/-- How a text is cut to a limit of bytes. -/
structure CutsAtBoundary (s : String) (limit : Nat) : Prop where
  /-- A text that fits stays as it is. -/
  fits : s.utf8ByteSize ≤ limit → truncate s limit = s
  /-- Of a longer text the longest prefix that fits is kept, which is the bytes up to the last
  boundary, and the mark is put behind it. -/
  cut : limit < s.utf8ByteSize → ∃ kept, IsLongestPrefix s limit kept ∧
    kept.toByteArray = s.toByteArray.extract 0 (lastBoundary s limit) ∧
    truncate s limit = kept ++ "... [truncated]"
  /-- The search ends at a boundary. -/
  isValid : String.Pos.Raw.IsValid s ⟨lastBoundary s limit⟩
  /-- It passes no boundary. -/
  last : ∀ n, String.Pos.Raw.IsValid s ⟨n⟩ → n ≤ limit → n ≤ lastBoundary s limit
  /-- It does not go beyond the limit, and within the text it makes at most three steps. -/
  near : lastBoundary s limit ≤ limit ∧
    (limit < s.utf8ByteSize → limit ≤ lastBoundary s limit + 3)

/-! ## Sizes in bytes -/

/-- The size of a list of characters is the one that strings are measured with. -/
theorem utf8Length_eq_utf8Len (cs : List Char) : utf8Length cs = String.utf8Len cs := by
  induction cs with
  | nil => rfl
  | cons c cs ih => rw [utf8Length, String.utf8Len, ih, Nat.add_comm]

/-- A string of characters has the size of its characters. -/
theorem utf8ByteSize_ofList (cs : List Char) :
    (String.ofList cs).utf8ByteSize = utf8Length cs := by
  rw [String.utf8ByteSize_ofList, utf8Length_eq_utf8Len]

/-- The characters of a string have its size. -/
theorem utf8Length_toList (s : String) : utf8Length s.toList = s.utf8ByteSize := by
  rw [utf8Length_eq_utf8Len, String.utf8Len_toList]

/-- What is in front of a text in another one is a prefix of its characters. -/
theorem exists_append_iff {s front : String} :
    (∃ rest, s = front ++ rest) ↔ front.toList <+: s.toList := by
  constructor
  · rintro ⟨rest, rfl⟩
    rw [String.toList_append]
    exact List.prefix_append front.toList rest.toList
  · rintro ⟨rest, hrest⟩
    refine ⟨String.ofList rest, String.toList_inj.mp ?_⟩
    rw [String.toList_append, String.toList_ofList, hrest]

/-- The boundaries are the sizes of the prefixes of whole characters. -/
theorem isBoundary_iff_isValid {s : String} {n : Nat} :
    IsBoundary n s.toList ↔ String.Pos.Raw.IsValid s ⟨n⟩ := by
  rw [String.Pos.Raw.isValid_iff_exists_append]
  constructor
  · rintro ⟨front, hprefix, hsize⟩
    have hfront : (String.ofList front).toList <+: s.toList := by
      rwa [String.toList_ofList]
    obtain ⟨rest, hrest⟩ := exists_append_iff.mpr hfront
    refine ⟨String.ofList front, rest, hrest, ?_⟩
    rw [String.rawEndPos, utf8ByteSize_ofList, hsize]
  · rintro ⟨front, rest, hrest, hend⟩
    refine ⟨front.toList, exists_append_iff.mp ⟨rest, hrest⟩, ?_⟩
    rw [utf8Length_toList]
    exact (congrArg String.Pos.Raw.byteIdx hend).symm

/-! ## The search -/

/-- The search never goes forward. -/
theorem lastBoundary_le (s : String) (n : Nat) : lastBoundary s n ≤ n := by
  induction n with
  | zero => exact Nat.le_refl 0
  | succ n ih =>
    rw [lastBoundary]
    split
    · exact Nat.le_refl (n + 1)
    · exact Nat.le_succ_of_le ih

/-- The search stops at a boundary; the front of the text is one if nothing else is. -/
theorem isValid_lastBoundary (s : String) (n : Nat) :
    String.Pos.Raw.IsValid s ⟨lastBoundary s n⟩ := by
  induction n with
  | zero => exact String.Pos.Raw.isValid_zero
  | succ n ih =>
    rw [lastBoundary]
    split
    · next hvalid => exact String.Pos.Raw.isValid_eq_true_iff.mp hvalid
    · exact ih

/-- The search stops at the first boundary that it meets, so every boundary up to its start is
passed by no step of it. -/
theorem le_lastBoundary {s : String} {m n : Nat} (hm : String.Pos.Raw.IsValid s ⟨m⟩)
    (hle : m ≤ n) : m ≤ lastBoundary s n := by
  induction n with
  | zero => exact hle
  | succ n ih =>
    rw [lastBoundary]
    split
    · exact hle
    · next hinvalid =>
      -- The position that the search leaves is no boundary, so the one that is sought is below it.
      have hne : m ≠ n + 1 := by
        rintro rfl
        exact hinvalid (String.Pos.Raw.isValid_eq_true_iff.mpr hm)
      exact ih (by omega)

/-! ## The prefix that is kept -/

/-- A prefix that fits is within the cut. -/
theorem prefix_takeBytes {limit : Nat} {front cs : List Char} (hfront : front <+: cs)
    (hfits : utf8Length front ≤ limit) : front <+: takeBytes limit cs := by
  obtain ⟨rest, rfl⟩ := hfront
  rw [takeBytes_append hfits]
  exact List.prefix_append front _

/-- A prefix is not larger than the text. -/
theorem utf8Length_mono {front cs : List Char} (h : front <+: cs) :
    utf8Length front ≤ utf8Length cs := by
  obtain ⟨rest, rfl⟩ := h
  rw [utf8Length_append]
  exact Nat.le_add_right _ _

/-- The search from the back and the collection from the front meet. -/
theorem utf8Length_takeBytes_eq (s : String) (limit : Nat) :
    utf8Length (takeBytes limit s.toList) = lastBoundary s limit := by
  apply Nat.le_antisymm
  · -- The cut ends at a boundary up to the limit, and the search passes none of these.
    have hboundary : IsBoundary (utf8Length (takeBytes limit s.toList)) s.toList :=
      ⟨takeBytes limit s.toList, takeBytes_prefix limit s.toList, rfl⟩
    exact le_lastBoundary (isBoundary_iff_isValid.mp hboundary)
      (utf8Length_takeBytes_le limit s.toList)
  · -- The search ends behind a prefix that fits, and the cut holds every such prefix.
    obtain ⟨front, hfront, hsize⟩ := isBoundary_iff_isValid.mpr (isValid_lastBoundary s limit)
    have hfits : utf8Length front ≤ limit := hsize ▸ lastBoundary_le s limit
    rw [← hsize]
    exact utf8Length_mono (prefix_takeBytes hfront hfits)

/-- The characters that are collected from the front are the longest prefix that fits. -/
theorem isLongestPrefix_takeBytes (s : String) (limit : Nat) :
    IsLongestPrefix s limit (String.ofList (takeBytes limit s.toList)) where
  isPrefix := by
    rw [exists_append_iff, String.toList_ofList]
    exact takeBytes_prefix limit s.toList
  fits := by
    rw [utf8ByteSize_ofList]
    exact utf8Length_takeBytes_le limit s.toList
  longest front rest hrest hfits := by
    -- Prefixes of the string are prefixes of its characters, where the cut is known to hold them.
    rw [← utf8Length_toList] at hfits
    rw [exists_append_iff, String.toList_ofList]
    exact prefix_takeBytes (exists_append_iff.mp ⟨rest, hrest⟩) hfits

/-- A prefix is the bytes up to its size. -/
theorem toByteArray_eq_extract {s kept : String} (h : ∃ rest, s = kept ++ rest) :
    kept.toByteArray = s.toByteArray.extract 0 kept.utf8ByteSize := by
  obtain ⟨rest, rfl⟩ := h
  rw [String.toByteArray_append, ByteArray.extract_append_eq_left]
  exact String.size_toByteArray.symm

/-- A text is cut at the last boundary that the limit allows. -/
theorem truncate_cutsAtBoundary (s : String) (limit : Nat) : CutsAtBoundary s limit where
  fits h := by
    rw [← utf8Length_toList] at h
    rw [truncate, truncateChars_of_le h, String.ofList_toList]
  cut h := by
    rw [← utf8Length_toList] at h
    -- What is kept is a prefix, so its bytes are known from its size alone, and its size is the
    -- boundary.
    have hlongest := isLongestPrefix_takeBytes s limit
    refine ⟨String.ofList (takeBytes limit s.toList), hlongest, ?_, ?_⟩
    · rw [toByteArray_eq_extract hlongest.isPrefix, utf8ByteSize_ofList, utf8Length_takeBytes_eq]
    · rw [truncate, truncateChars_of_lt h, String.ofList_append]
      rfl
  isValid := isValid_lastBoundary s limit
  last n hvalid hle := le_lastBoundary hvalid hle
  near := by
    refine ⟨lastBoundary_le s limit, fun h => ?_⟩
    rw [← utf8Length_toList] at h
    rw [← utf8Length_takeBytes_eq]
    exact le_utf8Length_takeBytes h

/-- The limit of two bytes is within the second character, and the search goes back in front of
it. -/
example : lastBoundary "aébc" 2 = 1 ∧ truncate "aébc" 2 = "a... [truncated]" := by decide

end Klaxon.Text
