import Klaxon.Proofs.Double.Rounding

/-!
# The numbers that doubles are

`value?` is the number that a finite double is. On finite doubles the comparisons are those of the
numbers (`le_iff`, `lt_iff`, `beq_iff`).

An operation that rounds its outcome leaves either the rounded number or, where that is too large
for the exponent, infinity. `Holds x q` says this of the double `x` and the number `q`, rounded as
if the exponent had no bound. Then whole computations can be followed with numbers.
-/

namespace Klaxon.Double

open Float.Model Float.Model.UnpackedFloat

/-- A number with a sign. -/
def signed : Sign → ℚ → ℚ
  | .negative, q => -q
  | .positive, q => q

/-- The number that a finite datum stands for. -/
def number? : UnpackedFloat → Option ℚ
  | .zero _ => some 0
  | .finite s m e _ => some (signed s (m * 2 ^ e))
  | .infinity _ => none
  | .notANumber => none

/-- The number that a finite double is. -/
def value? (x : Float) : Option ℚ := number? x.toModel.unpack

/-- Zero has no sign as a number. -/
@[simp] theorem signed_zero (s : Sign) : signed s 0 = 0 := by cases s <;> simp [signed]

/-- What a double with a value looks like. -/
theorem unpack_of_value? {x : Float} {q : ℚ} (h : value? x = some q) :
    (∃ s, x.toModel.unpack = .zero s ∧ q = 0) ∨
      ∃ s m e hm, x.toModel.unpack = .finite s m e hm ∧ q = signed s (m * 2 ^ e) := by
  unfold value? at h
  cases hu : x.toModel.unpack with
  | notANumber => simp [hu, number?] at h
  | infinity => simp [hu, number?] at h
  | zero s => exact .inl ⟨s, rfl, by simpa [hu, number?, eq_comm] using h⟩
  | finite s m e hm => exact .inr ⟨s, m, e, hm, rfl, by simpa [hu, number?, eq_comm] using h⟩

/-- A finite double is in its canonical form. -/
theorem exists_denotes {x : Float} {q : ℚ} (h : value? x = some q) :
    ∃ s a, Denotes s a x.toModel.unpack ∧ q = signed s a := by
  rcases unpack_of_value? h with ⟨s, hu, rfl⟩ | ⟨s, m, e, hm, hu, rfl⟩
  · exact ⟨s, 0, hu ▸ .zero, (signed_zero s).symm⟩
  · exact ⟨s, _, hu ▸ .finite hm (canonical_of_unpack hu).1, rfl⟩

/-- What a datum stands for is a double. -/
theorem Denotes.isDouble {s : Sign} {q : ℚ} {u : UnpackedFloat} (h : Denotes s q u) :
    IsDouble q := by
  cases h with
  | zero => exact ⟨0, 0, by norm_num, by norm_num, by simp⟩
  | finite hm hc => exact ⟨_, _, hc.lt, hc.lowest_le, rfl⟩

/-- Among the numbers that are not negative only zero can have the other sign. -/
theorem exists_denotes_of_nonneg {x : Float} {q : ℚ} (h : value? x = some q) (hq : 0 ≤ q) :
    ∃ s, Denotes s q x.toModel.unpack ∧ (q = 0 ∨ s = .positive) := by
  obtain ⟨s, a, ha, rfl⟩ := exists_denotes h
  cases s with
  | positive => exact ⟨.positive, ha, .inr rfl⟩
  | negative =>
    obtain rfl : a = 0 := le_antisymm (neg_nonneg.mp hq) ha.isDouble.nonneg
    rw [signed_zero]
    exact ⟨.negative, ha, .inl rfl⟩

/-! ## Size -/

namespace Canonical

variable {m : ℕ} {e : ℤ}

/-- Whether the exponent fits can be seen from the number. -/
theorem lt_two_zpow_iff (hc : Canonical m e) : (m : ℚ) * 2 ^ e < 2 ^ (1024 : ℤ) ↔ e ≤ 971 := by
  constructor
  · intro h
    by_contra hlarge
    -- Such a large exponent comes with a leading bit.
    have hlead : 2 ^ 52 ≤ m := hc.normal.resolve_right (by omega)
    have hlow : (2 : ℚ) ^ (52 + e) ≤ m * 2 ^ e := by
      rw [two_zpow_add]
      exact mul_le_mul_of_nonneg_right (by exact_mod_cast hlead) (two_zpow_pos e).le
    have hle : (2 : ℚ) ^ (1024 : ℤ) ≤ 2 ^ (52 + e) := two_zpow_le_two_zpow.mpr (by omega)
    linarith
  · intro he
    have hm : (m : ℚ) < 2 ^ (53 : ℤ) := by exact_mod_cast hc.lt
    calc (m : ℚ) * 2 ^ e < 2 ^ (53 : ℤ) * 2 ^ e := mul_lt_mul_of_pos_right hm (two_zpow_pos e)
      _ = 2 ^ (53 + e) := (two_zpow_add 53 e).symm
      _ ≤ 2 ^ (1024 : ℤ) := two_zpow_le_two_zpow.mpr (by omega)

/-- A larger exponent makes a larger number: only the lowest exponent goes without a leading bit. -/
theorem lt_of_exponent_lt {n : ℕ} {f : ℤ} (hc : Canonical m e) (hd : Canonical n f) (h : e < f) :
    (m : ℚ) * 2 ^ e < n * 2 ^ f := by
  have hlow := hc.lowest_le
  have hlead : 2 ^ 52 ≤ n := hd.normal.resolve_right (by omega)
  have hm : (m : ℚ) < 2 ^ (53 : ℤ) := by exact_mod_cast hc.lt
  have hn : (2 : ℚ) ^ (52 : ℤ) ≤ n := by exact_mod_cast hlead
  calc (m : ℚ) * 2 ^ e < 2 ^ (53 : ℤ) * 2 ^ e := mul_lt_mul_of_pos_right hm (two_zpow_pos e)
    _ = 2 ^ (53 + e) := (two_zpow_add 53 e).symm
    _ ≤ 2 ^ (52 + f) := two_zpow_le_two_zpow.mpr (by omega)
    _ = 2 ^ (52 : ℤ) * 2 ^ f := two_zpow_add 52 f
    _ ≤ n * 2 ^ f := mul_le_mul_of_nonneg_right hn (two_zpow_pos f).le

/-- Canonical data are compared by their exponents and then by their significands. -/
theorem compare_eq {n : ℕ} {f : ℤ} (hc : Canonical m e) (hd : Canonical n f) :
    (compare e f).then (compare m n) = compare ((m : ℚ) * 2 ^ e) (n * 2 ^ f) := by
  rcases lt_trichotomy e f with h | rfl | h
  · rw [compare_lt_iff_lt.mpr h, compare_lt_iff_lt.mpr (hc.lt_of_exponent_lt hd h)]
    rfl
  · have hpos := two_zpow_pos e
    rw [compare_eq_iff_eq.mpr rfl]
    rcases lt_trichotomy m n with h | rfl | h
    · rw [compare_lt_iff_lt.mpr h,
        compare_lt_iff_lt.mpr (mul_lt_mul_of_pos_right (Nat.cast_lt.mpr h) hpos)]
      rfl
    · rw [compare_eq_iff_eq.mpr rfl, compare_eq_iff_eq.mpr rfl]
      rfl
    · rw [compare_gt_iff_gt.mpr h,
        compare_gt_iff_gt.mpr (mul_lt_mul_of_pos_right (Nat.cast_lt.mpr h) hpos)]
      rfl
  · rw [compare_gt_iff_gt.mpr h, compare_gt_iff_gt.mpr (hd.lt_of_exponent_lt hc h)]
    rfl

end Canonical

/-! ## Comparison -/

/-- A comparison turns round when both numbers change their sign. -/
theorem compare_neg (p q : ℚ) : compare (-p) (-q) = (compare p q).swap := by
  rcases lt_trichotomy p q with h | rfl | h
  · rw [compare_lt_iff_lt.mpr h, compare_gt_iff_gt.mpr (neg_lt_neg h)]
    rfl
  · rw [compare_eq_iff_eq.mpr rfl, compare_eq_iff_eq.mpr rfl]
    rfl
  · rw [compare_gt_iff_gt.mpr h, compare_lt_iff_lt.mpr (neg_lt_neg h)]
    rfl

/-- Data are compared as the numbers that they stand for. -/
theorem Denotes.compare_eq {s t : Sign} {p q : ℚ} {u v : UnpackedFloat} (hu : Denotes s p u)
    (hv : Denotes t q v) : u.compare v = some (compare (signed s p) (signed t q)) := by
  have hneg {m : ℕ} (hm : 0 < m) (e : ℤ) : -((m : ℚ) * 2 ^ e) < 0 :=
    neg_neg_iff_pos.mpr (mul_two_zpow_pos hm e)
  cases hu with
  | zero =>
    rw [signed_zero]
    cases hv with
    | zero =>
      rw [signed_zero]
      exact congrArg some (compare_eq_iff_eq.mpr rfl).symm
    | finite hn hd =>
      cases t
      · exact congrArg some (compare_gt_iff_gt.mpr (hneg hn _)).symm
      · exact congrArg some (compare_lt_iff_lt.mpr (mul_two_zpow_pos hn _)).symm
  | finite hm hc =>
    cases hv with
    | zero =>
      rw [signed_zero]
      cases s
      · exact congrArg some (compare_lt_iff_lt.mpr (hneg hm _)).symm
      · exact congrArg some (compare_gt_iff_gt.mpr (mul_two_zpow_pos hm _)).symm
    | finite hn hd =>
      -- Two finite data: the signs decide, or the sizes where the signs are the same.
      cases s <;> cases t
      · simp only [UnpackedFloat.compare, hc.compare_eq hd, signed, compare_neg]
      · refine congrArg some (compare_lt_iff_lt.mpr ?_).symm
        exact (hneg hm _).trans (mul_two_zpow_pos hn _)
      · refine congrArg some (compare_gt_iff_gt.mpr ?_).symm
        exact (hneg hn _).trans (mul_two_zpow_pos hm _)
      · simp only [UnpackedFloat.compare, hc.compare_eq hd, signed]

section

variable {x y : Float} {p q : ℚ}

/-- A comparison of finite doubles is a comparison of their numbers. -/
theorem compare_eq (hx : value? x = some p) (hy : value? y = some q) :
    x.toModel.unpack.compare y.toModel.unpack = some (compare p q) := by
  obtain ⟨s, a, ha, rfl⟩ := exists_denotes hx
  obtain ⟨t, b, hb, rfl⟩ := exists_denotes hy
  exact ha.compare_eq hb

/-- Finite doubles are less as their numbers are. -/
theorem lt_iff (hx : value? x = some p) (hy : value? y = some q) : x < y ↔ p < q := by
  change (decide (x.toModel < y.toModel) = true) ↔ _
  rw [decide_eq_true_iff]
  change (x.toModel.unpack.lt y.toModel.unpack = true) ↔ _
  rw [UnpackedFloat.lt, compare_eq hx hy]
  simp [compare_lt_iff_lt]

/-- Finite doubles are at most each other as their numbers are. -/
theorem le_iff (hx : value? x = some p) (hy : value? y = some q) : x ≤ y ↔ p ≤ q := by
  change (decide (x.toModel ≤ y.toModel) = true) ↔ _
  rw [decide_eq_true_iff]
  change (x.toModel.unpack.le y.toModel.unpack = true) ↔ _
  rw [UnpackedFloat.le, compare_eq hx hy]
  simp [Ordering.isLE_iff_ne_gt, compare_le_iff_le]

/-- Finite doubles are equal as their numbers are. -/
theorem beq_iff (hx : value? x = some p) (hy : value? y = some q) : (x == y) = true ↔ p = q := by
  change (x.toModel.unpack.beq y.toModel.unpack = true) ↔ _
  rw [UnpackedFloat.beq, compare_eq hx hy]
  simp

/-- A double with a value is finite. -/
theorem isFinite_of_value? (hx : value? x = some p) : x.isFinite = true := by
  change x.toModel.unpack.isFinite = true
  rcases unpack_of_value? hx with ⟨s, hu, -⟩ | ⟨s, m, e, hm, hu, -⟩ <;> rw [hu] <;> rfl

/-- A finite double has a value. -/
theorem exists_value?_of_isFinite (h : x.isFinite = true) : ∃ q, value? x = some q := by
  change x.toModel.unpack.isFinite = true at h
  unfold value?
  cases hu : x.toModel.unpack with
  | notANumber => simp [hu, UnpackedFloat.isFinite] at h
  | infinity => simp [hu, UnpackedFloat.isFinite] at h
  | zero => exact ⟨_, rfl⟩
  | finite => exact ⟨_, rfl⟩

/-- The value of a double, where it is not negative, is a double in the sense of `IsDouble`. -/
theorem isDouble_of_value? (hx : value? x = some p) (hp : 0 ≤ p) : IsDouble p := by
  obtain ⟨s, hu, -⟩ := exists_denotes_of_nonneg hx hp
  exact hu.isDouble

/-- The values of doubles are bounded. -/
theorem lt_of_value? (hx : value? x = some p) : p < 2 ^ (1024 : ℤ) := by
  have hbig := two_zpow_pos 1024
  rcases unpack_of_value? hx with ⟨s, hu, rfl⟩ | ⟨s, m, e, hm, hu, rfl⟩
  · exact hbig
  · obtain ⟨hc, he⟩ := canonical_of_unpack hu
    cases s with
    | negative => exact (neg_neg_iff_pos.mpr (mul_two_zpow_pos hm e)).trans hbig
    | positive => exact hc.lt_two_zpow_iff.mpr he

end

/-! ## Outcomes of operations -/

namespace Denotes

variable {s : Sign} {q : ℚ} {u : UnpackedFloat}

/-- A number that is not too large is kept. -/
theorem value?_pack (h : Denotes s q u) (hq : q < 2 ^ (1024 : ℤ)) :
    value? (.ofModel (.pack u)) = some (signed s q) := by
  unfold value?
  cases h with
  | zero => rw [unpack_pack_zero, number?, signed_zero]
  | finite hm hc => rw [unpack_pack_finite hc (hc.lt_two_zpow_iff.mp hq), number?]

/-- A number that is too large becomes infinite. -/
theorem unpack_pack_of_le (h : Denotes s q u) (hq : 2 ^ (1024 : ℤ) ≤ q) :
    (Float.Model.pack u).unpack = .infinity s := by
  cases h with
  | zero => exact absurd hq (two_zpow_pos 1024).not_ge
  | finite hm hc =>
    have hlarge := mt hc.lt_two_zpow_iff.mpr hq.not_gt
    exact unpack_pack_overflow (by omega)

end Denotes

/-- Whether a double is what there is of a number that has been rounded as if the exponent had no
bound: the number, or infinity if the number is too large. -/
inductive Holds (x : Float) (q : ℚ) : Prop where
  | finite (h : value? x = some q)
  | infinite (h : x.toModel.unpack = .infinity .positive) (hq : 2 ^ (1024 : ℤ) ≤ q)

/-- What an operation computes is what its word holds, infinite where it is too large. -/
theorem Denotes.holds_pack {s : Sign} {q : ℚ} {u : UnpackedFloat} (h : Denotes s q u)
    (hs : q = 0 ∨ s = .positive) : Holds (.ofModel (.pack u)) q := by
  rcases lt_or_ge q (2 ^ (1024 : ℤ)) with hq | hq
  · have hsigned : signed s q = q := by
      rcases hs with rfl | rfl
      · exact signed_zero s
      · rfl
    exact .finite (hsigned ▸ h.value?_pack hq)
  · obtain rfl : s = .positive := hs.resolve_left ((two_zpow_pos 1024).trans_le hq).ne'
    exact .infinite (h.unpack_pack_of_le hq) hq

namespace Holds

variable {x : Float} {q : ℚ}

/-- A number that fits is kept. -/
theorem value?_eq (h : Holds x q) (hq : q < 2 ^ (1024 : ℤ)) : value? x = some q := by
  cases h with
  | finite h => exact h
  | infinite _ hlarge => exact absurd hq hlarge.not_gt

/-- A number that does not fit has become infinite. -/
theorem unpack_eq (h : Holds x q) (hq : 2 ^ (1024 : ℤ) ≤ q) :
    x.toModel.unpack = .infinity .positive := by
  cases h with
  | finite h => exact absurd (lt_of_value? h) hq.not_gt
  | infinite h => exact h

/-- The outcome is finite exactly if the number fits. -/
theorem isFinite_iff (h : Holds x q) : x.isFinite = true ↔ q < 2 ^ (1024 : ℤ) := by
  cases h with
  | finite h => exact iff_of_true (isFinite_of_value? h) (lt_of_value? h)
  | infinite h hq =>
    refine iff_of_false ?_ hq.not_gt
    change x.toModel.unpack.isFinite ≠ true
    rw [h]
    decide

end Holds

end Klaxon.Double
