import Klaxon.Proofs.Double.Operation
import Klaxon.Rule.Operator

/-!
# Comparisons of whole numbers

A rule compares all numbers as doubles, the whole ones, too. `check_int` says what that makes of the
whole numbers that a document can hold: the operators decide how the nearest doubles are related,
and whether one of the doubles of a list is the same. Rounding keeps the order
(`Double.nearest_mono`), so no comparison is reversed (`compare_int_of_le`), but neighbours beyond
`2 ^ 53` can be taken for each other (`neighbours_equal`). Up to there all whole numbers are
doubles, and comparisons are exact (`check_int_of_abs_le`).
-/

namespace Klaxon.Operator

open Double (nearest)

/-- Whether a whole number has a place in a document: it is a word of 64 bits, with or without a
sign. -/
def IsWord (i : ℤ) : Prop := -2 ^ 63 ≤ i ∧ i < 2 ^ 64

instance : DecidablePred IsWord := fun i => inferInstanceAs (Decidable (-2 ^ 63 ≤ i ∧ i < 2 ^ 64))

/-- How an operator that compares numbers wants them to be related. -/
def relation? : Operator → Option (ℚ → ℚ → Prop)
  | .eq => some (· = ·)
  | .ne => some (· ≠ ·)
  | .gt => some (· > ·)
  | .lt => some (· < ·)
  | .gte => some (· ≥ ·)
  | .lte => some (· ≤ ·)
  | _ => none

/-- A whole number is turned into the nearest double. -/
theorem value?_ofInt {a : ℤ} (ha : IsWord a) :
    Double.value? (Float.ofInt a) = some (nearest a) :=
  Double.value?_ofInt (le_trans (by norm_num) ha.1) ha.2.le

section

variable {a b : ℤ}

/-- Whole numbers are equal to the operators if their nearest doubles are. -/
theorem equal_int (ha : IsWord a) (hb : IsWord b) :
    equal (.int a) (.int b) = true ↔ nearest a = nearest b :=
  Double.beq_iff (value?_ofInt ha) (value?_ofInt hb)

/-- A whole number is less to the operators if its nearest double is. -/
theorem precedes_int (ha : IsWord a) (hb : IsWord b) :
    precedes (.int a) (.int b) = true ↔ nearest a < nearest b :=
  decide_eq_true_iff.trans (Double.lt_iff (value?_ofInt ha) (value?_ofInt hb))

/-- Whole numbers tie to the operators if their nearest doubles are the same. -/
theorem ties_int (ha : IsWord a) (hb : IsWord b) :
    ties (.int a) (.int b) = true ↔ nearest a = nearest b :=
  Double.beq_iff (value?_ofInt ha) (value?_ofInt hb)

/-- A comparison of two whole numbers is one of the nearest doubles. -/
theorem compare_int {op : Operator} {r : ℚ → ℚ → Prop} (hop : op.relation? = some r)
    (ha : IsWord a) (hb : IsWord b) :
    op.check (.int a) (.int b) = true ↔ r (nearest a) (nearest b) := by
  -- The operators that do not compare numbers have no relation, so six cases are left.
  cases op <;> cases hop
  case eq => exact equal_int ha hb
  case ne => simp only [check, Bool.not_eq_true', ← Bool.not_eq_true, equal_int ha hb, ne_eq]
  case gt => exact precedes_int hb ha
  case lt => exact precedes_int ha hb
  case gte =>
    simp only [check, Bool.or_eq_true, precedes_int hb ha, ties_int ha hb, ge_iff_le,
      le_iff_lt_or_eq]
    exact or_congr_right eq_comm
  case lte =>
    simp only [check, Bool.or_eq_true, precedes_int ha hb, ties_int ha hb, le_iff_lt_or_eq]

/-- A search in a list of whole numbers is one for a number with the same nearest double. -/
theorem any_equal_int {items : List ℤ} (ha : IsWord a)
    (hitems : ∀ i ∈ items, IsWord i) :
    ((items.map Json.int).any fun i => equal (.int a) i) = true ↔
      ∃ i ∈ items, nearest i = nearest a := by
  simp only [List.any_map, List.any_eq_true, Function.comp_apply]
  refine exists_congr fun i => and_congr_right fun hi => ?_
  rw [equal_int ha (hitems i hi), eq_comm]

/-- The same search with the sides of the comparisons exchanged. -/
theorem any_int_equal {items : List ℤ} (ha : IsWord a)
    (hitems : ∀ i ∈ items, IsWord i) :
    ((items.map Json.int).any fun i => equal i (.int a)) = true ↔
      ∃ i ∈ items, nearest i = nearest a := by
  simp only [List.any_map, List.any_eq_true, Function.comp_apply]
  exact exists_congr fun i => and_congr_right fun hi => equal_int (hitems i hi) ha

end

/-- A comparison of whole numbers is not reversed, since rounding keeps the order. -/
theorem compare_int_of_le {a b : ℤ} (ha : IsWord a) (hb : IsWord b) (hle : a ≤ b) :
    lte.check (.int a) (.int b) = true ∧ gte.check (.int b) (.int a) = true := by
  have hnearest : nearest a ≤ nearest b := Double.nearest_mono (Int.cast_le.mpr hle)
  have hlte : lte.check (.int a) (.int b) = true ↔ nearest a ≤ nearest b := compare_int rfl ha hb
  have hgte : gte.check (.int b) (.int a) = true ↔ nearest b ≥ nearest a := compare_int rfl hb ha
  exact ⟨hlte.mpr hnearest, hgte.mpr hnearest⟩

/-- How whole numbers are compared, alone and with the items of a list: the nearest doubles count.
No comparison is reversed. -/
theorem check_int {a : ℤ} (ha : IsWord a) :
    (∀ op r, relation? op = some r → ∀ b, IsWord b →
      (op.check (.int a) (.int b) = true ↔ r (nearest a) (nearest b))) ∧
    (∀ items : List ℤ, (∀ i ∈ items, IsWord i) →
      (isIn.check (.int a) (.array (items.map .int)) = true ↔ ∃ i ∈ items, nearest i = nearest a) ∧
      (contains.check (.array (items.map .int)) (.int a) = true ↔
        ∃ i ∈ items, nearest i = nearest a)) ∧
    ∀ b, IsWord b → a ≤ b →
      lte.check (.int a) (.int b) = true ∧ gte.check (.int b) (.int a) = true := by
  refine ⟨fun op r hop b hb => compare_int hop ha hb, fun items hitems => ⟨?_, ?_⟩,
    fun b hb hle => compare_int_of_le ha hb hle⟩
  · exact any_equal_int ha hitems
  · -- Here the items of the list are on the left of each comparison.
    simp only [check, containment?, beq_iff_eq, Option.some.injEq]
    exact any_int_equal ha hitems

/-- Neighbours to the operators, alone and in a list. -/
theorem check_int_neighbours :
    IsWord 9007199254740993 ∧ IsWord 9007199254740992 ∧
      (eq.check (.int 9007199254740993) (.int 9007199254740992) = true ↔
        nearest (9007199254740993 : ℤ) = nearest (9007199254740992 : ℤ)) ∧
      (isIn.check (.int 9007199254740993) (.array ([9007199254740992].map .int)) = true ↔
        ∃ i ∈ [9007199254740992], nearest (i : ℤ) = nearest (9007199254740993 : ℤ)) ∧
      (contains.check (.array ([9007199254740992].map .int)) (.int 9007199254740993) = true ↔
        ∃ i ∈ [9007199254740992], nearest (i : ℤ) = nearest (9007199254740993 : ℤ)) := by
  have hfirst : IsWord 9007199254740993 := by decide
  have hsecond : IsWord 9007199254740992 := by decide
  obtain ⟨hcompare, hlists, -⟩ := check_int hfirst
  exact ⟨hfirst, hsecond, hcompare eq _ rfl _ hsecond, hlists [9007199254740992] (by decide)⟩

/-- Two different whole numbers are equal to the operator. -/
theorem neighbours_equal :
    IsWord 9007199254740993 ∧ IsWord 9007199254740992 ∧
      ¬ (eq.check (.int 9007199254740993) (.int 9007199254740992) = true ↔
        (9007199254740993 : ℤ) = 9007199254740992) := by
  have hequal : eq.check (.int 9007199254740993) (.int 9007199254740992) = true := by decide
  exact ⟨by decide, by decide, fun h => absurd (h.mp hequal) (by decide)⟩

/-- Up to `2 ^ 53` whole numbers are compared exactly. -/
theorem check_int_of_abs_le {a b : ℤ} (ha : |a| ≤ 2 ^ 53) (hb : |b| ≤ 2 ^ 53) {op : Operator}
    {r : ℚ → ℚ → Prop} (hop : relation? op = some r) :
    op.check (.int a) (.int b) = true ↔ r a b := by
  have hin {i : ℤ} (hi : |i| ≤ 2 ^ 53) : IsWord i := by
    rw [abs_le] at hi
    exact ⟨by omega, by omega⟩
  have hcheck := compare_int hop (hin ha) (hin hb)
  rwa [Double.nearest_intCast ha, Double.nearest_intCast hb] at hcheck

end Klaxon.Operator
