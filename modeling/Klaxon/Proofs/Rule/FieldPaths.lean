import Klaxon.Proofs.Rule.Validation

/-!
# The paths that fields stand for

The check of a condition splits a field as it is written. A look-up trims it first, so that the two
do not see the same segments. `walksField_of_validate` says what the difference is for the fields of
an accepted condition: only the first segment and the last one can lose blanks (`TrimsTo`), and a
segment is empty for the look-up exactly if it is one of these two and is blank as it is written.

Whatever its segments, an accepted field leads strictly below the event: something is left of it,
and every step goes to a part of a value (`sizeOf_lt_of_step`).
-/

namespace Klaxon

namespace Json

/-! ## Steps go down -/

/-- A member is smaller than the members together. -/
theorem sizeOf_lt_of_find? {name : String} {value : Json} {members : List (String × Json)}
    (h : Members.find? name members = some value) : sizeOf value < sizeOf members := by
  induction members with
  | nil => cases h
  | cons m rest ih =>
    obtain ⟨k, v⟩ := m
    rw [Members.find?] at h
    split at h
    · cases h
      simp only [List.cons.sizeOf_spec, Prod.mk.sizeOf_spec]
      omega
    · have := ih h
      simp only [List.cons.sizeOf_spec]
      omega

/-- A step leads to a part of a value. -/
theorem sizeOf_lt_of_step {segment : List Char} {j next : Json} (h : step segment j = some next) :
    sizeOf next < sizeOf j := by
  cases j with
  | object members =>
    have := sizeOf_lt_of_find? h
    simp only [object.sizeOf_spec]
    omega
  | array items =>
    obtain ⟨i, -, hitem⟩ := Option.bind_eq_some_iff.mp h
    have := List.sizeOf_lt_of_mem (List.mem_of_getElem? hitem)
    simp only [array.sizeOf_spec]
    omega
  | null | bool | int | float | string => cases h

/-- A walk does not lead to anything larger. -/
theorem sizeOf_le_of_walk {path : List (List Char)} {j last : Json} (h : walk path j = some last) :
    sizeOf last ≤ sizeOf j := by
  induction path generalizing j with
  | nil =>
    cases h
    exact Nat.le_refl _
  | cons s path ih =>
    obtain ⟨next, hstep, hwalk⟩ := Option.bind_eq_some_iff.mp h
    exact Nat.le_trans (ih hwalk) (Nat.le_of_lt (sizeOf_lt_of_step hstep))

/-- A walk of one step or more does not end where it begins. -/
theorem walk_ne_self {path : List (List Char)} (hne : path ≠ []) (j : Json) :
    walk path j ≠ some j := by
  intro h
  obtain ⟨s, rest, rfl⟩ := List.exists_cons_of_ne_nil hne
  obtain ⟨next, hstep, hwalk⟩ := Option.bind_eq_some_iff.mp h
  have := sizeOf_lt_of_step hstep
  have := sizeOf_le_of_walk hwalk
  omega

/-! ## Segments of a trimmed text -/

/-- What the segments of a text become when the text is trimmed. -/
inductive TrimsTo : List (List Char) → List (List Char) → Prop where
  | only (s : List Char) : TrimsTo [s] [Text.trimChars s]
  | ends (first : List Char) (inner : List (List Char)) (last : List Char) :
    TrimsTo (first :: (inner ++ [last])) (Text.trimStart first :: (inner ++ [Text.trimEnd last]))

/-- Every text has a segment, an empty one at least. -/
theorem segments_ne_nil (cs : List Char) : segments cs ≠ [] := by
  rw [segments_eq_splitOn]
  exact List.splitOn_ne_nil '.' cs

/-- A text without a dot has none after trimming at the front either. -/
theorem segments_trimStart_of_not_mem {cs : List Char} (h : '.' ∉ cs) :
    segments (Text.trimStart cs) = [Text.trimStart cs] :=
  segments_of_not_mem (mt (Text.trimStart_sublist cs).mem h)

/-- Trimming brings no character in. -/
theorem not_mem_trimEnd {c : Char} {cs : List Char} (h : c ∉ cs) : c ∉ Text.trimEnd cs :=
  mt (Text.trimEnd_sublist cs).mem h

/-- Blanks at the back are those of the last segment. -/
theorem segments_trimEnd (cs : List Char) :
    ∃ inner last, segments cs = inner ++ [last] ∧
      segments (Text.trimEnd cs) = inner ++ [Text.trimEnd last] := by
  by_cases hdot : '.' ∈ cs
  · -- The last dot is the first one from the back.
    obtain ⟨back, front, hreverse, hback⟩ :=
      List.eq_append_cons_of_mem (List.mem_reverse.mpr hdot)
    obtain rfl : cs = front.reverse ++ '.' :: back.reverse := by
      rw [← List.reverse_reverse cs, hreverse]
      simp
    have hlast : '.' ∉ back.reverse := mt List.mem_reverse.mp hback
    refine ⟨segments front.reverse, back.reverse, ?_, ?_⟩
    · rw [segments_append_dot, segments_of_not_mem hlast]
    · rw [Text.trimEnd_append_cons Text.isBlank_dot, segments_append_dot,
        segments_of_not_mem (not_mem_trimEnd hlast)]
  · -- Without a dot there is one segment, and it is the text.
    refine ⟨[], cs, segments_of_not_mem hdot, ?_⟩
    exact segments_of_not_mem (not_mem_trimEnd hdot)

/-- Trimming changes the first segment at its front and the last one at its back. -/
theorem segments_trimsTo (cs : List Char) :
    TrimsTo (segments cs) (segments (Text.trimChars cs)) := by
  by_cases hdot : '.' ∈ cs
  · obtain ⟨first, rest, rfl, hfirst⟩ := List.eq_append_cons_of_mem hdot
    obtain ⟨inner, last, hrest, htrimmed⟩ := segments_trimEnd rest
    rw [Text.trimChars_append_dot, segments_append_dot, segments_append_dot, hrest, htrimmed,
      segments_of_not_mem hfirst, segments_trimStart_of_not_mem hfirst]
    exact .ends first inner last
  · have htrimmed : '.' ∉ Text.trimChars cs :=
      not_mem_trimEnd (mt (Text.trimStart_sublist cs).mem hdot)
    rw [segments_of_not_mem hdot, segments_of_not_mem htrimmed]
    exact .only cs

section TrimsTo

variable {written path : List (List Char)}

/-- The segments between the ends are kept as they are. -/
theorem TrimsTo.ne_nil_of_mem_inner (h : TrimsTo written path) (hwritten : ∀ s ∈ written, s ≠ []) :
    ∀ s ∈ path.tail.dropLast, s ≠ [] := by
  cases h with
  | only s =>
    intro _ hs
    cases hs
  | ends first inner last =>
    intro s hs
    rw [List.tail_cons, List.dropLast_concat] at hs
    exact hwritten s (List.mem_cons_of_mem _ (List.mem_append_left _ hs))

/-- Trimming leaves nothing of a segment exactly if that segment is at one of the ends and blank. -/
theorem TrimsTo.nil_mem_iff (h : TrimsTo written path) (hwritten : ∀ s ∈ written, s ≠ []) :
    [] ∈ path ↔
      ∃ s, (s ∈ written.head? ∨ s ∈ written.getLast?) ∧ ∀ c ∈ s, Text.isBlank c = true := by
  cases h with
  | only s =>
    rw [List.mem_singleton, eq_comm, Text.trimChars_eq_nil_iff]
    simp
  | ends first inner last =>
    have hinner : [] ∉ inner := fun hmem =>
      hwritten [] (List.mem_cons_of_mem _ (List.mem_append_left _ hmem)) rfl
    have hempty : [] ∈ Text.trimStart first :: (inner ++ [Text.trimEnd last]) ↔
        Text.trimStart first = [] ∨ Text.trimEnd last = [] := by
      simp [hinner]
    rw [hempty, Text.trimStart_eq_nil_iff, Text.trimEnd_eq_nil_iff, List.head?_cons,
      ← List.cons_append, List.getLast?_concat]
    simp [or_and_right, exists_or]

end TrimsTo

end Json

namespace Condition

open Json (walked TrimsTo)

/-- How a field is looked up. -/
structure WalksField (field : String) : Prop where
  /-- Something is left of it when it is trimmed. -/
  ne : Text.trim field ≠ ""
  /-- A look-up takes a step for each segment of what is left. -/
  lookup_eq : ∀ context : Json, context.lookup field = Json.walk (walked field) context
  /-- It does not end at the event itself. -/
  below : ∀ context : Json, context.lookup field ≠ some context
  /-- The segments are those that are written, but for blanks at both ends of the field. -/
  trims : TrimsTo (field.toList.splitOn '.') (walked field)
  /-- None but the first and the last one is empty. -/
  inner : ∀ s ∈ (walked field).tail.dropLast, s ≠ []
  /-- One is empty exactly if the first or the last one is blank as it is written. -/
  empty_iff : [] ∈ walked field ↔
    ∃ s, (s ∈ (field.toList.splitOn '.').head? ∨ s ∈ (field.toList.splitOn '.').getLast?) ∧
      ∀ c ∈ s, Text.isBlank c = true

/-- What names a field is walked. -/
theorem NamesField.walksField {field : String} (h : NamesField field) : WalksField field := by
  have hblank : Text.isBlankText field = false := by
    obtain ⟨c, hc, hvisible⟩ := h.notBlank
    rw [← Bool.not_eq_true, Text.isBlankText_iff]
    intro hall
    rw [hall c hc] at hvisible
    cases hvisible
  have htrims : TrimsTo (field.toList.splitOn '.') (walked field) := by
    rw [← Json.segments_eq_splitOn]
    exact Json.segments_trimsTo field.toList
  have hwalk := Json.lookup_eq_walk hblank
  constructor
  · -- A field of blanks only names nothing, so something is left of this one.
    intro hempty
    rw [Text.trim, ← String.ofList_nil, String.ofList_inj] at hempty
    rw [Text.isBlankText, hempty] at hblank
    cases hblank
  · exact hwalk
  · intro context
    rw [hwalk]
    exact Json.walk_ne_self (Json.segments_ne_nil _) context
  · exact htrims
  · exact htrims.ne_nil_of_mem_inner h.segments
  · exact htrims.nil_mem_iff h.segments

/-- The fields of an accepted condition are walked below the event. What the check leaves open is
whether a segment at one of the ends is blank and so empty for the look-up. -/
theorem walksField_of_validate {c : Condition} (h : c.validate = .ok ()) {field : String}
    {operator : Operator} {value : Json} (hmem : comparison field operator value ∈ c.subtrees) :
    WalksField field := by
  have hproper : c.Proper := (wellFormed_iff_proper c).mp ((validate_eq_ok_iff_wellFormed c).mp h)
  exact (hproper.field field operator value hmem).walksField

/-- A field with blanks around its path, below a negation. -/
theorem paddedField_walksField :
    (not (comparison " site.pumps.0 " .present .null)).validate = .ok () ∧
      comparison " site.pumps.0 " .present .null ∈
        (not (comparison " site.pumps.0 " .present .null)).subtrees ∧
      WalksField " site.pumps.0 " ∧
      walked " site.pumps.0 " = ["site".toList, "pumps".toList, "0".toList] := by
  have hvalid : (not (comparison " site.pumps.0 " .present .null)).validate = .ok () := rfl
  have hmem : comparison " site.pumps.0 " .present .null ∈
      (not (comparison " site.pumps.0 " .present .null)).subtrees := .tail _ (.head _)
  exact ⟨hvalid, hmem, walksField_of_validate hvalid hmem, rfl⟩

/-- A blank in front of a leading dot passes the check, and the look-up goes through the member with
the empty name. -/
theorem blankFirst_walksEmpty :
    (comparison " .a" .present .null).validate = .ok () ∧ [] ∈ walked " .a" ∧
      (Json.object [("", .object [("a", .int 1)])]).lookup " .a" = some (.int 1) :=
  ⟨rfl, by decide, rfl⟩

end Condition

end Klaxon
