import Klaxon.Proofs.Double.Nearest
import Klaxon.Proofs.Double.Word

/-!
# The rounding step of the operations

The operations compute a significand that may be too long, with a note on what was cut off, and
hand it to `roundWithAccuracy`. It shifts bits out until 53 are left, into a round bit and a sticky
bit, rounds by these, and shifts once more where the rounding has carried into a new bit.

`Represents` says which numbers such a significand stands for. One shift halves the number
(`Represents.shiftRightOne`), so the rounding at the end is that of `Klaxon.Double.nearestSize`
(`roundWithAccuracy_denotes`).
-/

namespace Klaxon.Double

open Float.Model Float.Model.UnpackedFloat

/-! ## Significands with a round bit and a sticky bit -/

/-- Whether a number is what a significand with its two extra bits stands for. -/
def Represents (em : ExtendedMantissa) (x : ℚ) : Prop :=
  match em.roundBit, em.stickyBit with
  | false, false => x = em.mantissa
  | false, true => (em.mantissa : ℚ) < x ∧ x < em.mantissa + 1 / 2
  | true, false => x = em.mantissa + 1 / 2
  | true, true => (em.mantissa : ℚ) + 1 / 2 < x ∧ x < em.mantissa + 1

namespace Represents

variable {em : ExtendedMantissa} {x : ℚ}

/-- The significand is no larger than the number. -/
theorem mantissa_le (h : Represents em x) : (em.mantissa : ℚ) ≤ x := by
  obtain ⟨m, r, s⟩ := em
  cases r <;> cases s <;> simp only [Represents] at h ⊢ <;> linarith

/-- The number is less than one above the significand. -/
theorem lt_mantissa_add_one (h : Represents em x) : x < em.mantissa + 1 := by
  obtain ⟨m, r, s⟩ := em
  cases r <;> cases s <;> simp only [Represents] at h ⊢ <;> linarith

/-- The significand is the whole part of the number. -/
theorem floor_eq (h : Represents em x) : ⌊x⌋ = em.mantissa :=
  Int.floor_eq_iff.mpr ⟨by exact_mod_cast h.mantissa_le, by exact_mod_cast h.lt_mantissa_add_one⟩

/-- Rounding by the two bits is rounding of the number. -/
theorem roundedMantissa_eq (h : Represents em x) : (em.roundedMantissa : ℤ) = roundEven x := by
  have hfloor := h.floor_eq
  unfold roundEven
  rw [hfloor]
  obtain ⟨m, r, s⟩ := em
  -- The two bits say on which side of the half the rest of the number lies.
  cases r <;> cases s <;>
    simp only [Represents, ExtendedMantissa.roundedMantissa, ExtendedMantissa.accuracy,
      Accuracy.roundToNearestEven, Int.cast_natCast] at h ⊢
  · rw [if_pos (by linarith)]
  · rw [if_pos (by linarith)]
  · rw [if_neg (by linarith), if_neg (by linarith)]
    push_cast
    rfl
  · rw [if_neg (by linarith), if_pos (by linarith)]
    push_cast
    rfl

/-- Shifting a bit out halves the number. -/
theorem shiftRightOne (h : Represents em x) : Represents em.shiftRightOne (x / 2) := by
  obtain ⟨m, r, s⟩ := em
  have hm : ((m % 2 : ℕ) : ℚ) + 2 * ((m / 2 : ℕ) : ℚ) = m := by exact_mod_cast Nat.mod_add_div m 2
  -- The bit that leaves becomes the round bit, and the old round bit is added to the sticky one.
  rcases Nat.mod_two_eq_zero_or_one m with hbit | hbit <;> rw [hbit] at hm <;>
    cases r <;> cases s <;>
    simp only [Represents, ExtendedMantissa.shiftRightOne, hbit, bne_self_eq_false, Bool.or_self,
      Bool.or_true, Bool.or_false, show (1 != 0) = true from rfl] at h ⊢ <;>
    first | linarith | constructor <;> linarith

/-- Shifting bits out divides the number by a power of two. -/
theorem shiftRight (h : Represents em x) (n : ℕ) : Represents (em >>> n) (x / 2 ^ n) := by
  change Represents (n.repeat ExtendedMantissa.shiftRightOne em) _
  induction n with
  | zero => simpa [Nat.repeat] using h
  | succ n ih =>
    rw [Nat.repeat, pow_succ, ← div_div]
    exact ih.shiftRightOne

end Represents

/-- A significand with nothing cut off stands for itself. -/
theorem represents_exact (m : ℕ) : Represents (.ofMantissaAndAccuracy m .exact) m := rfl

/-- The note on what was cut off does not change the significand. -/
@[simp] theorem mantissa_ofMantissaAndAccuracy (m : ℕ) (acc : Accuracy) :
    (ExtendedMantissa.ofMantissaAndAccuracy m acc).mantissa = m := by
  rcases acc with _ | o
  · rfl
  · cases o <;> rfl

/-- A quotient with what its remainder says about the bits that were cut off. -/
theorem represents_quotient (a : ℕ) {b : ℕ} (hb : 0 < b) :
    Represents (.ofMantissaAndAccuracy (a / b) (accuracyOfFraction (a % b) b)) (a / b) := by
  have hpos : (0 : ℚ) < b := Nat.cast_pos.mpr hb
  have hlt : ((a % b : ℕ) : ℚ) < b := Nat.cast_lt.mpr (Nat.mod_lt a hb)
  have hmod : ((a / b : ℕ) : ℚ) * b + (a % b : ℕ) = a := by exact_mod_cast Nat.div_add_mod' a b
  have hdiv : (a : ℚ) / b = (a / b : ℕ) + (a % b : ℕ) / b := by
    rw [← hmod, add_div, mul_div_cancel_right₀ _ hpos.ne']
  rw [hdiv]
  unfold accuracyOfFraction
  split_ifs with hzero
  · rw [hzero, Nat.cast_zero, zero_div, add_zero]
    exact represents_exact _
  have hrem : (0 : ℚ) < (a % b : ℕ) / b := div_pos (by exact_mod_cast Nat.pos_of_ne_zero hzero) hpos
  have hless : ((a % b : ℕ) : ℚ) / b < 1 := (div_lt_one hpos).mpr hlt
  -- The remainder is compared with half of the divisor, as the note does.
  rcases lt_trichotomy (2 * (a % b)) b with h | h | h
  · have hhalf : ((a % b : ℕ) : ℚ) / b < 1 / 2 := by
      rw [div_lt_div_iff₀ hpos two_pos]
      exact_mod_cast (by omega : a % b * 2 < 1 * b)
    rw [Nat.compare_eq_lt.mpr h]
    constructor <;> rw [mantissa_ofMantissaAndAccuracy] <;> linarith
  · have hhalf : ((a % b : ℕ) : ℚ) / b = 1 / 2 := by
      rw [div_eq_div_iff hpos.ne' two_ne_zero]
      exact_mod_cast (by omega : a % b * 2 = 1 * b)
    rw [Nat.compare_eq_eq.mpr h, hhalf]
    rfl
  · have hhalf : 1 / 2 < ((a % b : ℕ) : ℚ) / b := by
      rw [div_lt_div_iff₀ two_pos hpos]
      exact_mod_cast (by omega : 1 * b < a % b * 2)
    rw [Nat.compare_eq_gt.mpr h]
    constructor <;> rw [mantissa_ofMantissaAndAccuracy] <;> linarith

/-! ## The exponent to round to -/

/-- The exponent that the rounding aims at, by the number of bits. -/
theorem targetExponent_totalExponent (m : ℕ) (e : ℤ) :
    Format.binary64.targetExponent (totalExponent m e) = max (m.log2 + e - 52) (-1074) := by
  simp only [Format.targetExponent, totalExponent, Format.mantissaBits, Format.minExponent]
  push_cast
  congr 1
  omega

/-- The rounding aims at the exponent of the space between the doubles. -/
theorem unitExponent_eq_targetExponent {m : ℕ} (hm : 0 < m) {x : ℚ} (hlow : m ≤ x)
    (hhigh : x < m + 1) (e : ℤ) :
    unitExponent (x * 2 ^ e) = Format.binary64.targetExponent (totalExponent m e) := by
  rw [unitExponent, log_mul_two_zpow hm hlow hhigh, targetExponent_totalExponent,
    Nat.log2_eq_log_two]

/-! ## The outcome of a rounding -/

/-- Whether a datum of a sign is a number that is not negative, in its canonical form. -/
inductive Denotes (s : Sign) : ℚ → UnpackedFloat → Prop where
  | zero : Denotes s 0 (.zero s)
  | finite {m : ℕ} {e : ℤ} (hm : 0 < m) (hc : Canonical m e) :
    Denotes s (m * 2 ^ e) (.finite s m e hm)

/-- Before the rounding, the bits beyond the exponent that it aims at are shifted out. -/
theorem shiftToTargetExponent_eq (m : ℕ) (e : ℤ) (acc : Accuracy) {t : ℤ}
    (h : Format.binary64.targetExponent (totalExponent m e) = t) :
    shiftToTargetExponent Format.binary64 m e acc =
      (ExtendedMantissa.ofMantissaAndAccuracy m acc >>> (t - e).toNat, e + (t - e).toNat) := by
  subst h
  rfl

/-- A significand of 53 bits at most is not shifted. -/
theorem shift_short {r : ℕ} {t : ℤ} (hr : r < 2 ^ 53) (ht : -1074 ≤ t) :
    shiftToTargetExponent Format.binary64 r t .exact = (⟨r, false, false⟩, t) := by
  have hlog : r.log2 ≤ 52 := by
    rcases r.eq_zero_or_pos with rfl | hpos
    · decide
    · exact Nat.lt_succ_iff.mp ((Nat.log2_lt hpos.ne').mpr hr)
  rw [shiftToTargetExponent_eq r t .exact (targetExponent_totalExponent r t),
    show (max (r.log2 + t - 52) (-1074) - t).toNat = 0 by omega, Nat.cast_zero, add_zero]
  rfl

/-- A carry into a new bit is shifted out. -/
theorem shift_carried {t : ℤ} (ht : -1074 ≤ t) :
    shiftToTargetExponent Format.binary64 (2 ^ 53) t .exact = (⟨2 ^ 52, false, false⟩, t + 1) := by
  rw [shiftToTargetExponent_eq _ t .exact (targetExponent_totalExponent _ t), Nat.log2_two_pow,
    show (max (((53 : ℕ) : ℤ) + t - 52) (-1074) - t).toNat = 1 by omega]
  rfl

/-- The rounding step makes the nearest double of a number, as long as no bits are missing. -/
theorem roundWithAccuracy_denotes (s : Sign) {m : ℕ} (hm : 0 < m) {e : ℤ} {acc : Accuracy} {x : ℚ}
    (h : Represents (.ofMantissaAndAccuracy m acc) x) (he : e ≤ unitExponent (x * 2 ^ e)) :
    Denotes s (nearestSize (x * 2 ^ e)) (roundWithAccuracy Format.binary64 s m e acc) := by
  have hlow := h.mantissa_le
  have hhigh := h.lt_mantissa_add_one
  rw [mantissa_ofMantissaAndAccuracy] at hlow hhigh
  have htarget := unitExponent_eq_targetExponent hm hlow hhigh e
  have hpos : 0 < x * 2 ^ e := mul_pos ((Nat.cast_pos.mpr hm).trans_le hlow) (two_zpow_pos e)
  have hmax := roundEven_unit_le (x * 2 ^ e)
  have hmin := le_roundEven_unit hpos
  have hbelow : -1074 ≤ unitExponent (x * 2 ^ e) := le_max_right _ _
  rw [nearestSize]
  generalize unitExponent (x * 2 ^ e) = t at *
  have hscaled : x / 2 ^ (t - e).toNat = x * 2 ^ e / 2 ^ t := by
    rw [← zpow_natCast, Int.toNat_of_nonneg (by omega), zpow_sub₀ two_ne_zero]
    field_simp
  have hround := (h.shiftRight (t - e).toNat).roundedMantissa_eq
  rw [hscaled] at hround
  unfold roundWithAccuracy
  rw [shiftToTargetExponent_eq m e acc htarget.symm, ← hround,
    show e + ((t - e).toNat : ℤ) = t by omega]
  rw [← hround] at hmax hmin
  dsimp only
  generalize (ExtendedMantissa.ofMantissaAndAccuracy m acc >>> (t - e).toNat).roundedMantissa = r
    at hmax hmin
  rw [Int.cast_natCast]
  -- The rounded significand has 53 bits, or the rounding has carried into one more.
  rcases (by omega : r < 2 ^ 53 ∨ r = 2 ^ 53) with hlt | rfl
  · rw [shift_short hlt hbelow]
    split_ifs with hzero
    · rw [show r = 0 from hzero, Nat.cast_zero, zero_mul]
      exact .zero
    · exact .finite _ ⟨hlt, hbelow, by omega⟩
  · rw [shift_carried hbelow]
    have hvalue : ((2 ^ 53 : ℕ) : ℚ) * 2 ^ t = (2 ^ 52 : ℕ) * 2 ^ (t + 1) := by
      rw [two_zpow_add]
      push_cast
      ring
    rw [hvalue]
    exact .finite (by decide) ⟨by decide, by omega, .inl le_rfl⟩

end Klaxon.Double
