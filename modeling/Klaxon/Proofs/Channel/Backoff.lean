import Klaxon.Proofs.Channel.Powers

/-!
# Backoff

The delays of an accepted policy, over all attempt numbers of 32 bits. None is beyond the cap. From
one attempt to the next they grow, with one exception (`delayFor_le_succ_iff`): the exponent is a
signed word, so that it is negative from the attempt `2 ^ 31 + 1` on. There the delays begin again
with next to nothing and grow up to the first one.

What a product holds is followed as a rational number, which `toNat_capped` brings under the cap.
So the delay for a small exponent is the floor of the lesser of the rounded power and the cap
(`Admits.toNat_delayFor_of_le`). A power of two makes every rounding exact
(`toNat_delayFor_two_pow`), and only a first delay of zero is not as it should be then: zero times
infinity is no number, and what is no number counts as the cap.
-/

namespace Klaxon.RetryPolicy

open Double

/-! ## Accepted policies -/

/-- What the check of a policy makes sure of, with the number that the factor is. -/
structure Admits (p : RetryPolicy) (c : ℚ) : Prop where
  value : value? p.backoffMultiplier = some c
  one_le : 1 ≤ c
  cap_le : p.maxRetryDelayMs.toNat ≤ 86400000
  delay_le : p.retryDelayMs.toNat ≤ p.maxRetryDelayMs.toNat

/-- An accepted policy has a number for its factor, and its two delays are in order. -/
theorem exists_admits {p : RetryPolicy} (hp : p.validate = .ok ()) : ∃ c, p.Admits c := by
  unfold validate at hp
  split_ifs at hp with hfactor hcap hdelay
  simp only [Bool.or_eq_true, Bool.not_eq_true', decide_eq_true_eq, not_or,
    Bool.not_eq_false] at hfactor
  obtain ⟨c, hc⟩ := exists_value?_of_isFinite hfactor.1
  -- The factor is not a NaN, so that "not below one" says "at least one".
  refine ⟨c, hc, not_lt.mp (mt (lt_iff hc value?_one).mpr hfactor.2), ?_, ?_⟩
  · exact UInt64.le_iff_toNat_le.mp (UInt64.not_lt.mp hcap)
  · exact UInt64.le_iff_toNat_le.mp (UInt64.not_lt.mp hdelay)

namespace Admits

variable {p : RetryPolicy} {c : ℚ} (hp : p.Admits c)
include hp

/-- The factor is a double, as the rounded powers need it. -/
theorem isDouble : IsDouble c := isDouble_of_value? hp.value (zero_le_one.trans hp.one_le)

/-- The cap is a double. -/
theorem value?_cap : value? p.maxRetryDelayMs.toFloat = some (p.maxRetryDelayMs.toNat : ℚ) := by
  have hle := hp.cap_le
  rw [value?_toFloat, (isDouble_natCast (by omega)).nearestSize_eq]

/-- The first delay is a double. -/
theorem value?_delay : value? p.retryDelayMs.toFloat = some (p.retryDelayMs.toNat : ℚ) := by
  have hle := hp.delay_le.trans hp.cap_le
  rw [value?_toFloat, (isDouble_natCast (by omega)).nearestSize_eq]

end Admits

/-! ## The cap -/

/-- The cap is applied to the number that a product holds. -/
theorem toNat_capped {raw cap : Float} {q : ℚ} {k : ℕ} (hraw : Holds raw q) (hq : 0 ≤ q)
    (hcap : value? cap = some (k : ℚ)) (hk : k < 2 ^ 64) :
    ((if raw.isFinite && raw ≤ cap then raw else cap).toUInt64.toNat : ℤ) = ⌊min q k⌋ := by
  have hk' : (k : ℚ) < 2 ^ (64 : ℤ) := by exact_mod_cast hk
  by_cases hle : q ≤ k
  · -- A product that does not exceed the cap is no infinity.
    have hvalue := hraw.value?_eq (hle.trans_lt (lt_of_value? hcap))
    rw [if_pos (by simp [isFinite_of_value? hvalue, le_iff hvalue hcap, hle]), min_eq_left hle]
    exact toNat_toUInt64 hvalue hq (hle.trans_lt hk')
  · -- Beyond the cap both the numbers and the infinities fail the test.
    have hnot : ¬ (raw.isFinite && decide (raw ≤ cap)) = true := by
      simp only [Bool.and_eq_true, decide_eq_true_eq, not_and]
      intro hfinite
      rwa [le_iff (hraw.value?_eq (hraw.isFinite_iff.mp hfinite)) hcap]
    rw [if_neg hnot, min_eq_right (not_le.mp hle).le]
    exact toNat_toUInt64 hcap (Nat.cast_nonneg k) hk'

/-- A delay of zero and an infinite power have no product. -/
theorem not_isFinite_zero_mul {x y : Float} (hx : value? x = some 0)
    (hy : y.toModel.unpack = .infinity .positive) : (x * y).isFinite = false := by
  change (Float.Model.pack (.mul _ x.toModel.unpack y.toModel.unpack)).unpack.isFinite = false
  rw [hy]
  rcases unpack_of_value? hx with ⟨s, hu, -⟩ | ⟨s, m, e, hm, hu, hzero⟩
  · -- Zero times infinity has no number.
    rw [hu]
    exact congrArg _ unpack_pack_notANumber
  · -- No finite float with a mantissa has the value zero.
    have hne := (mul_two_zpow_pos hm e).ne
    cases s with
    | negative => exact absurd (neg_eq_zero.mp hzero.symm).symm hne
    | positive => exact absurd hzero hne

/-! ## Exponents -/

/-- Up to `2 ^ 31` an attempt has the exponent one less than its number. -/
theorem exponentAfter_of_le {attempt : UInt32} (h : attempt.toNat ≤ 2 ^ 31) :
    exponentAfter attempt = (attempt.toNat - 1 : ℕ) := by
  unfold exponentAfter
  rw [Int.bmod_eq_of_le_mul_two]
  · simp only [UInt32.size]
    omega
  · simp only [UInt32.size]
    omega

/-- Beyond `2 ^ 31` the exponent is negative. -/
theorem exponentAfter_of_lt {attempt : UInt32} (h : 2 ^ 31 < attempt.toNat) :
    exponentAfter attempt = attempt.toNat - 1 - 2 ^ 32 := by
  have hlt := attempt.toNat_lt
  unfold exponentAfter
  rw [← Int.sub_bmod_right, Int.bmod_eq_of_le_mul_two]
  all_goals
    simp only [UInt32.size]
    omega

/-! ## Delays -/

namespace Admits

variable {p : RetryPolicy} {c : ℚ} (hp : p.Admits c) {attempt : UInt32}
include hp

/-- A delay that is not zero grows with the power, up to the cap. -/
theorem toNat_delayFor_of_le (h : attempt.toNat ≤ 2 ^ 31) (hd : 1 ≤ p.retryDelayMs.toNat) :
    ((p.delayFor attempt).toNat : ℤ) =
      ⌊min (nearestSize (p.retryDelayMs.toNat * roundedPower c (attempt.toNat - 1)))
        (p.maxRetryDelayMs.toNat : ℚ)⌋ := by
  have hcap := hp.cap_le
  have hone : (1 : ℚ) ≤ p.retryDelayMs.toNat := by exact_mod_cast hd
  have hpower := holds_power (.finite hp.value) hp.one_le (Int.natCast_nonneg (attempt.toNat - 1))
  have hraw := (Holds.finite hp.value?_delay).mul hpower hone (one_le_roundedPower hp.one_le _)
  rw [delayFor, exponentAfter_of_le h]
  exact toNat_capped hraw (zero_le_one.trans (one_le_nearestSize_mul hone
    (one_le_roundedPower hp.one_le _))) hp.value?_cap (by omega)

/-- A delay of zero stays zero until the power is infinite; then there is no product, and the cap
counts. -/
theorem toNat_delayFor_of_zero (h : attempt.toNat ≤ 2 ^ 31) (hd : p.retryDelayMs.toNat = 0) :
    (p.delayFor attempt).toNat =
      if roundedPower c (attempt.toNat - 1) < 2 ^ (1024 : ℤ) then 0
      else p.maxRetryDelayMs.toNat := by
  have hcap := hp.cap_le
  have hpower := holds_power (.finite hp.value) hp.one_le (Int.natCast_nonneg (attempt.toNat - 1))
  have hone := one_le_roundedPower hp.one_le (attempt.toNat - 1)
  have hdelay := hp.value?_delay
  rw [hd, Nat.cast_zero] at hdelay
  rw [Int.natAbs_natCast] at hpower
  by_cases hlt : roundedPower c (attempt.toNat - 1) < 2 ^ (1024 : ℤ)
  · -- The power is a number: the product is zero, below every cap.
    have hraw := holds_mul hdelay (hpower.value?_eq hlt) le_rfl (zero_le_one.trans hone)
    rw [zero_mul, nearestSize_zero] at hraw
    have hnat := toNat_capped hraw le_rfl hp.value?_cap (by omega)
    rw [min_eq_left (Nat.cast_nonneg _), Int.floor_zero] at hnat
    rw [if_pos hlt, delayFor, exponentAfter_of_le h]
    exact_mod_cast hnat
  · -- The power has overflowed, and zero times infinity takes the cap.
    rw [if_neg hlt, delayFor, exponentAfter_of_le h]
    rw [not_isFinite_zero_mul hdelay (hpower.unpack_eq (not_lt.mp hlt))]
    have hnat := toNat_toUInt64 hp.value?_cap (Nat.cast_nonneg _)
      (by exact_mod_cast (by omega : p.maxRetryDelayMs.toNat < 2 ^ 64))
    rw [Int.floor_natCast] at hnat
    exact_mod_cast hnat

/-- The delay divided by a power. -/
theorem divided_le {q : ℚ} (hq : 1 ≤ q) :
    nearestSize (p.retryDelayMs.toNat * roundedReciprocal q) ≤ p.retryDelayMs.toNat := by
  have hle := hp.delay_le.trans hp.cap_le
  refine (isDouble_natCast (by omega)).nearestSize_le
    (mul_nonneg (Nat.cast_nonneg _) (roundedReciprocal_nonneg hq)) ?_
  exact mul_le_of_le_one_right (Nat.cast_nonneg _) (roundedReciprocal_le_one hq)

/-- Beyond `2 ^ 31` the delay is divided by the power. -/
theorem toNat_delayFor_of_lt (h : 2 ^ 31 < attempt.toNat) :
    ((p.delayFor attempt).toNat : ℤ) =
      ⌊nearestSize (p.retryDelayMs.toNat *
        roundedReciprocal (roundedPower c (2 ^ 32 + 1 - attempt.toNat)))⌋ := by
  have hcap := hp.cap_le
  have hlt := attempt.toNat_lt
  have hexp := exponentAfter_of_lt h
  have habs : (exponentAfter attempt).natAbs = 2 ^ 32 + 1 - attempt.toNat := by omega
  -- The negative exponent asks for the reciprocal, so that the product is below the first delay.
  have hpower := value?_power_neg (.finite hp.value) hp.one_le (e := exponentAfter attempt)
    (by omega)
  rw [habs] at hpower
  have hone := one_le_roundedPower hp.one_le (2 ^ 32 + 1 - attempt.toNat)
  have hnonneg := roundedReciprocal_nonneg hone
  have hraw := holds_mul hp.value?_delay hpower (Nat.cast_nonneg _) hnonneg
  have hle := (hp.divided_le hone).trans (Nat.cast_le.mpr hp.delay_le)
  have hnat := toNat_capped hraw (nearestSize_nonneg (mul_nonneg (Nat.cast_nonneg _) hnonneg))
    hp.value?_cap (by omega)
  rwa [min_eq_left hle] at hnat

/-! ## Growth -/

/-- No delay is longer than the cap. -/
theorem delayFor_le_cap (attempt : UInt32) :
    (p.delayFor attempt).toNat ≤ p.maxRetryDelayMs.toNat := by
  rcases le_or_gt attempt.toNat (2 ^ 31) with h | h
  · rcases p.retryDelayMs.toNat.eq_zero_or_pos with hd | hd
    · rw [hp.toNat_delayFor_of_zero h hd]
      split_ifs
      · exact Nat.zero_le _
      · exact le_rfl
    · have hfloor := Int.floor_le_floor (min_le_right
        (nearestSize (p.retryDelayMs.toNat * roundedPower c (attempt.toNat - 1)))
        (p.maxRetryDelayMs.toNat : ℚ))
      rw [← hp.toNat_delayFor_of_le h hd, Int.floor_natCast] at hfloor
      exact_mod_cast hfloor
  · -- Divided by a power, the delay is at most the first one, which the check put below the cap.
    have hfloor := Int.floor_le_floor (hp.divided_le
      (one_le_roundedPower hp.one_le (2 ^ 32 + 1 - attempt.toNat)))
    rw [← hp.toNat_delayFor_of_lt h, Int.floor_natCast] at hfloor
    exact (Int.ofNat_le.mp hfloor).trans hp.delay_le

/-- Up to `2 ^ 31` the delays grow. -/
theorem delayFor_mono {a b : UInt32} (hab : a.toNat ≤ b.toNat) (hb : b.toNat ≤ 2 ^ 31) :
    (p.delayFor a).toNat ≤ (p.delayFor b).toNat := by
  have hpower := roundedPower_mono hp.isDouble hp.one_le (Nat.sub_le_sub_right hab 1)
  have ha := hab.trans hb
  rcases p.retryDelayMs.toNat.eq_zero_or_pos with hd | hd
  · rw [hp.toNat_delayFor_of_zero ha hd, hp.toNat_delayFor_of_zero hb hd]
    -- The later power may overflow before the earlier one, never the other way round.
    split_ifs with hfirst hsecond hsecond
    · exact le_rfl
    · exact Nat.zero_le _
    · exact absurd (hpower.trans_lt hsecond) hfirst
    · exact le_rfl
  · have hone := one_le_roundedPower hp.one_le (a.toNat - 1)
    have hsize : nearestSize (p.retryDelayMs.toNat * roundedPower c (a.toNat - 1)) ≤
        nearestSize (p.retryDelayMs.toNat * roundedPower c (b.toNat - 1)) :=
      nearestSize_mono (mul_nonneg (Nat.cast_nonneg _) (by linarith))
        (mul_le_mul_of_nonneg_left hpower (Nat.cast_nonneg _))
    have hfloor := Int.floor_le_floor (min_le_min_right (p.maxRetryDelayMs.toNat : ℚ) hsize)
    rw [← hp.toNat_delayFor_of_le ha hd, ← hp.toNat_delayFor_of_le hb hd] at hfloor
    exact_mod_cast hfloor

/-- Beyond `2 ^ 31` the delays grow again. -/
theorem delayFor_mono_of_lt {a b : UInt32} (ha : 2 ^ 31 < a.toNat) (hab : a.toNat ≤ b.toNat) :
    (p.delayFor a).toNat ≤ (p.delayFor b).toNat := by
  have hone := one_le_roundedPower hp.one_le (2 ^ 32 + 1 - b.toNat)
  have hone' := one_le_roundedPower hp.one_le (2 ^ 32 + 1 - a.toNat)
  have hrecip := roundedReciprocal_anti hone
    (roundedPower_mono hp.isDouble hp.one_le (Nat.sub_le_sub_left hab (2 ^ 32 + 1)))
  have hfloor := Int.floor_le_floor (nearestSize_mono
    (mul_nonneg (Nat.cast_nonneg _) (roundedReciprocal_nonneg hone'))
    (mul_le_mul_of_nonneg_left hrecip (Nat.cast_nonneg p.retryDelayMs.toNat)))
  rw [← hp.toNat_delayFor_of_lt ha, ← hp.toNat_delayFor_of_lt (ha.trans_le hab)] at hfloor
  exact_mod_cast hfloor

/-- Up to `2 ^ 31` no delay is shorter than that of the policy. -/
theorem le_delayFor (h : attempt.toNat ≤ 2 ^ 31) :
    p.retryDelayMs.toNat ≤ (p.delayFor attempt).toNat := by
  rcases p.retryDelayMs.toNat.eq_zero_or_pos with hd | hd
  · exact hd.trans_le (Nat.zero_le _)
  · have hle := hp.delay_le.trans hp.cap_le
    have hone := one_le_roundedPower hp.one_le (attempt.toNat - 1)
    have hsize := (isDouble_natCast (n := p.retryDelayMs.toNat) (by omega)).le_nearestSize
      (le_mul_of_one_le_right (Nat.cast_nonneg _) hone)
    have hfloor : (p.retryDelayMs.toNat : ℤ) ≤ (p.delayFor attempt).toNat := by
      rw [hp.toNat_delayFor_of_le h hd]
      exact Int.le_floor.mpr (le_min (by exact_mod_cast hsize) (by exact_mod_cast hp.delay_le))
    exact_mod_cast hfloor

/-- The first delay with a negative exponent is shorter than the one before it. -/
theorem delayFor_lt {a b : UInt32} (ha : a.toNat = 2 ^ 31) (hb : b.toNat = 2 ^ 31 + 1)
    (hc : 1 < c) (hne : (p.delayFor a).toNat ≠ 0) :
    (p.delayFor b).toNat < (p.delayFor a).toNat := by
  have hlt := hp.toNat_delayFor_of_lt (by omega : 2 ^ 31 < b.toNat)
  rcases p.retryDelayMs.toNat.eq_zero_or_pos with hd | hd
  · rw [hd, Nat.cast_zero, zero_mul, nearestSize_zero, Int.floor_zero] at hlt
    omega
  · have hle := hp.delay_le.trans hp.cap_le
    have hone := one_le_roundedPower hp.one_le (2 ^ 32 + 1 - b.toNat)
    -- `2 ^ 32 + 1 - b` is `2 ^ 31`, and one more factor above one already moves the rounded power.
    have hpower := one_add_le_roundedPower hp.isDouble hc (n := 2 ^ 32 + 1 - b.toNat) (by omega)
    have hsize := nearestSize_natCast_mul_lt hd (by omega) (roundedReciprocal_nonneg hone)
      (roundedReciprocal_le hpower)
    have hfloor : ((p.delayFor b).toNat : ℤ) < p.retryDelayMs.toNat := by
      rw [hlt]
      exact Int.floor_lt.mpr (by exact_mod_cast hsize)
    exact (by exact_mod_cast hfloor : (p.delayFor b).toNat < p.retryDelayMs.toNat).trans_le
      (hp.le_delayFor ha.le)

end Admits

/-- A factor of one leaves the delay as it is. -/
theorem Admits.delayFor_of_one {p : RetryPolicy} (hp : p.Admits 1) (attempt : UInt32) :
    (p.delayFor attempt).toNat = p.retryDelayMs.toNat := by
  -- All powers of one are one, with no rounding at all.
  have hpower (n : ℕ) : roundedPower 1 n = 1 := by
    have h := roundedPower_two_pow 0 n
    rwa [Nat.zero_mul, pow_zero] at h
  have hle := hp.delay_le.trans hp.cap_le
  have hsize : nearestSize p.retryDelayMs.toNat = p.retryDelayMs.toNat :=
    (isDouble_natCast (by omega)).nearestSize_eq
  have hone : (1 : ℚ) < 2 ^ (1024 : ℤ) := one_lt_zpow₀ one_lt_two (by norm_num)
  rcases le_or_gt attempt.toNat (2 ^ 31) with h | h
  · rcases p.retryDelayMs.toNat.eq_zero_or_pos with hd | hd
    · rw [hp.toNat_delayFor_of_zero h hd, hpower, if_pos hone, hd]
    · have hfloor := hp.toNat_delayFor_of_le h hd
      rw [hpower, mul_one, hsize, min_eq_left (by exact_mod_cast hp.delay_le),
        Int.floor_natCast] at hfloor
      exact_mod_cast hfloor
  · have hfloor := hp.toNat_delayFor_of_lt h
    rw [hpower, roundedReciprocal_one, mul_one, hsize, Int.floor_natCast] at hfloor
    exact_mod_cast hfloor

/-- The delays of an accepted policy stay below the cap, and they grow from one attempt to the next.
Where the exponent turns negative they do not, unless all delays are the same or there was none. -/
theorem delayFor_le_succ_iff {p : RetryPolicy} (hp : p.validate = .ok ()) (attempt : UInt32) :
    p.delayFor attempt ≤ p.maxRetryDelayMs ∧
      (attempt.toNat + 1 < UInt32.size →
        (p.delayFor attempt ≤ p.delayFor (attempt + 1) ↔
          attempt.toNat ≠ 2 ^ 31 ∨ (p.backoffMultiplier == 1.0) = true ∨
            p.delayFor attempt = 0)) := by
  obtain ⟨c, hc⟩ := exists_admits hp
  refine ⟨UInt64.le_iff_toNat_le.mpr (hc.delayFor_le_cap attempt), fun hrange => ?_⟩
  have hnext : (attempt + 1).toNat = attempt.toNat + 1 := by
    rw [UInt32.toNat_add]
    exact Nat.mod_eq_of_lt hrange
  rw [UInt64.le_iff_toNat_le]
  -- The two stretches on which the exponent has one sign grow; only the step between them is in
  -- doubt.
  rcases lt_trichotomy attempt.toNat (2 ^ 31) with h | h | h
  · exact iff_of_true (hc.delayFor_mono (by omega) (by omega)) (.inl h.ne)
  · rw [beq_iff hc.value value?_one]
    constructor
    · intro hle
      by_contra hnot
      push Not at hnot
      have hone : 1 < c := lt_of_le_of_ne hc.one_le (Ne.symm hnot.2.1)
      have hne : (p.delayFor attempt).toNat ≠ 0 := by simpa [← UInt64.toNat_inj] using hnot.2.2
      -- A factor above one and a delay above zero make the step go down.
      have hlt := hc.delayFor_lt h (hnext.trans (by rw [h])) hone hne
      exact absurd hle hlt.not_ge
    · rintro (hne | rfl | hzero)
      · exact absurd h hne
      · rw [hc.delayFor_of_one, hc.delayFor_of_one]
      · rw [hzero]
        exact Nat.zero_le _
  · exact iff_of_true (hc.delayFor_mono_of_lt h (by omega)) (.inl h.ne')

/-- The standard delays at the attempts `2 ^ 31` and the next. -/
theorem standard_delayFor_le_succ_iff :
    standard.validate = .ok () ∧ (2147483648 : UInt32).toNat + 1 < UInt32.size ∧
      (standard.delayFor 2147483648 ≤ standard.delayFor (2147483648 + 1) ↔
        (2147483648 : UInt32).toNat ≠ 2 ^ 31 ∨ (standard.backoffMultiplier == 1.0) = true ∨
          standard.delayFor 2147483648 = 0) := by
  have hp : standard.validate = .ok () := rfl
  have hrange : (2147483648 : UInt32).toNat + 1 < UInt32.size := by decide
  exact ⟨hp, hrange, (delayFor_le_succ_iff hp 2147483648).2 hrange⟩

/-- The standard policy doubles its delay. -/
theorem admits_standard : standard.Admits 2 where
  value := by
    change number? (.finite .positive (2 ^ 52) (-51) (by decide)) = _
    norm_num [number?, signed]
  one_le := by norm_num
  cap_le := by decide
  delay_le := by decide

/-- With the standard policy the delay drops after the attempt `2 ^ 31`. -/
theorem standard_delayFor_drops :
    standard.validate = .ok () ∧
      ¬ standard.delayFor 2147483648 ≤ standard.delayFor 2147483649 := by
  have hfirst : 5000 ≤ (standard.delayFor 2147483648).toNat :=
    admits_standard.le_delayFor (by decide : (2147483648 : UInt32).toNat ≤ 2 ^ 31)
  have hlt := admits_standard.delayFor_lt (a := 2147483648) (b := 2147483649) (by decide)
    (by decide) one_lt_two (by omega)
  exact ⟨rfl, fun h => absurd (UInt64.le_iff_toNat_le.mp h) hlt.not_ge⟩

/-! ## Factors that are powers of two -/

/-- With a power of two for a factor the delays are the exact ones, up to the cap. Only a delay of
zero jumps to the cap, as soon as the power is infinite. -/
theorem toNat_delayFor_two_pow {p : RetryPolicy} (hp : p.validate = .ok ()) {j : ℕ}
    (hj : value? p.backoffMultiplier = some (2 ^ j)) {attempt : UInt32}
    (h : attempt.toNat ≤ 2 ^ 31) :
    (p.delayFor attempt).toNat =
      if p.retryDelayMs.toNat = 0 ∧ 1024 ≤ j * (attempt.toNat - 1) then p.maxRetryDelayMs.toNat
      else min (p.retryDelayMs.toNat * (2 ^ j) ^ (attempt.toNat - 1)) p.maxRetryDelayMs.toNat := by
  obtain ⟨c, hc⟩ := exists_admits hp
  obtain rfl : 2 ^ j = c := Option.some.inj (hj.symm.trans hc.value)
  rcases p.retryDelayMs.toNat.eq_zero_or_pos with hd | hd
  · -- A power of two overflows exactly where its exponent reaches 1024.
    have hlimit : (2 : ℚ) ^ (j * (attempt.toNat - 1)) < 2 ^ (1024 : ℤ) ↔
        ¬ 1024 ≤ j * (attempt.toNat - 1) := by
      rw [← zpow_natCast, zpow_lt_zpow_iff_right₀ one_lt_two]
      omega
    rw [hc.toNat_delayFor_of_zero h hd, roundedPower_two_pow, hd, zero_mul, Nat.zero_min]
    simp only [hlimit, ite_not, true_and]
  · have hle := hc.delay_le.trans hc.cap_le
    -- The product is a mantissa of 32 bits and a power of two, so that no rounding changes it.
    have hdouble : IsDouble (p.retryDelayMs.toNat * 2 ^ (j * (attempt.toNat - 1))) := by
      refine ⟨p.retryDelayMs.toNat, (j * (attempt.toNat - 1) : ℕ), by omega, by omega, ?_⟩
      rw [zpow_natCast]
    have hfloor := hc.toNat_delayFor_of_le h hd
    rw [roundedPower_two_pow, hdouble.nearestSize_eq] at hfloor
    rw [if_neg (by omega), ← pow_mul]
    have hcast : min ((p.retryDelayMs.toNat : ℚ) * 2 ^ (j * (attempt.toNat - 1)))
        p.maxRetryDelayMs.toNat =
        (min (p.retryDelayMs.toNat * 2 ^ (j * (attempt.toNat - 1)))
          p.maxRetryDelayMs.toNat : ℕ) := by
      push_cast
      rfl
    rw [hcast, Int.floor_natCast] at hfloor
    exact_mod_cast hfloor

/-- A policy without a first delay, with the standard factor. -/
theorem toNat_delayFor_zero_two_pow :
    (RetryPolicy.mk 5 0 2.0 1000).validate = .ok () ∧
      value? (RetryPolicy.mk 5 0 2.0 1000).backoffMultiplier = some (2 ^ 1) ∧
      (1025 : UInt32).toNat ≤ 2 ^ 31 ∧
      ((RetryPolicy.mk 5 0 2.0 1000).delayFor 1025).toNat = 1000 := by
  have hp : (RetryPolicy.mk 5 0 2.0 1000).validate = .ok () := rfl
  have hvalue : value? (RetryPolicy.mk 5 0 2.0 1000).backoffMultiplier = some (2 ^ 1) := by
    rw [pow_one]
    exact admits_standard.value
  have hrange : (1025 : UInt32).toNat ≤ 2 ^ 31 := by decide
  refine ⟨hp, hvalue, hrange, (toNat_delayFor_two_pow hp hvalue hrange).trans ?_⟩
  decide

/-- A first delay of zero does not stay zero. -/
theorem zeroDelay_jumps :
    (RetryPolicy.mk 5 0 2.0 1000).validate = .ok () ∧
      ¬ ((RetryPolicy.mk 5 0 2.0 1000).delayFor 1025).toNat = min (0 * 2 ^ (1025 - 1)) 1000 := by
  have hc : (RetryPolicy.mk 5 0 2.0 1000).Admits 2 :=
    ⟨admits_standard.value, one_le_two, by decide, by decide⟩
  have hpower : roundedPower 2 1024 = 2 ^ 1024 := by simpa using roundedPower_two_pow 1 1024
  have hcap := hc.toNat_delayFor_of_zero (by decide : (1025 : UInt32).toNat ≤ 2 ^ 31) rfl
  rw [show (1025 : UInt32).toNat - 1 = 1024 from rfl, hpower, if_neg (by norm_num)] at hcap
  rw [hcap, zero_mul]
  exact ⟨rfl, by decide⟩

end Klaxon.RetryPolicy
