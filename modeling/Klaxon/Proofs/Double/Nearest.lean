import Mathlib.Data.Int.Log
import Mathlib.Data.Rat.Floor
import Mathlib.Tactic.Linarith
import Mathlib.Tactic.NormNum
import Mathlib.Tactic.Positivity
import Mathlib.Tactic.Ring

/-!
# The double nearest to a rational number

`nearest q` is the number that the rounding of doubles makes of `q`, a tie to the even significand,
where the exponent has no upper bound. Between two powers of two the doubles are evenly spaced, by
`2 ^ unitExponent q`; so rounding is `roundEven` of the multiples of this unit.

Rounding keeps the order (`nearest_mono`). Within one unit this is so because `roundEven` does, and
where the unit changes there is a power of two in between, which is a double itself. With
`IsDouble.nearestSize_eq` all bounds on rounded results come down to bounds on exact ones.
-/

namespace Klaxon.Double

/-! ## Whole numbers -/

/-- The whole number nearest to a rational number, a tie to the even one. -/
def roundEven (q : ℚ) : ℤ :=
  if q - ⌊q⌋ < 1 / 2 then ⌊q⌋
  else if 1 / 2 < q - ⌊q⌋ then ⌊q⌋ + 1
  else ⌊q⌋ + ⌊q⌋ % 2

/-- Rounding does not go below the whole part. -/
theorem floor_le_roundEven (q : ℚ) : ⌊q⌋ ≤ roundEven q := by
  unfold roundEven
  split_ifs <;> omega

/-- Rounding goes up by one at most. -/
theorem roundEven_le_floor_add_one (q : ℚ) : roundEven q ≤ ⌊q⌋ + 1 := by
  unfold roundEven
  split_ifs <;> omega

/-- A whole number is rounded to itself. -/
@[simp] theorem roundEven_intCast (n : ℤ) : roundEven n = n := by
  simp [roundEven]

/-- A whole number that is not negative is rounded to itself. -/
@[simp] theorem roundEven_natCast (n : ℕ) : roundEven n = n := by
  simpa using roundEven_intCast n

/-- Rounding to whole numbers keeps the order. -/
theorem roundEven_mono {p q : ℚ} (h : p ≤ q) : roundEven p ≤ roundEven q := by
  rcases (Int.floor_le_floor h).lt_or_eq with hlt | heq
  · calc roundEven p ≤ ⌊p⌋ + 1 := roundEven_le_floor_add_one p
      _ ≤ ⌊q⌋ := hlt
      _ ≤ roundEven q := floor_le_roundEven q
  · -- With one whole part for both, the fractions decide.
    have hp := Int.floor_le p
    unfold roundEven
    rw [heq]
    split_ifs <;> first | omega | linarith

/-! ## Numbers that are not negative -/

/-- The exponent of the space between the doubles around a positive number. -/
def unitExponent (q : ℚ) : ℤ := max (Int.log 2 q - 52) (-1074)

/-- The double nearest to a number that is not negative. -/
def nearestSize (q : ℚ) : ℚ := roundEven (q / 2 ^ unitExponent q) * 2 ^ unitExponent q

/-- Powers of two are positive. -/
theorem two_zpow_pos (e : ℤ) : (0 : ℚ) < 2 ^ e := zpow_pos (by norm_num) e

/-- Powers of two are ordered as their exponents. -/
theorem two_zpow_le_two_zpow {d e : ℤ} : (2 : ℚ) ^ d ≤ 2 ^ e ↔ d ≤ e :=
  zpow_le_zpow_iff_right₀ (by norm_num)

/-- Exponents add up in products of powers of two. -/
theorem two_zpow_add (d e : ℤ) : (2 : ℚ) ^ (d + e) = 2 ^ d * 2 ^ e := zpow_add₀ (by norm_num) d e

/-- A significand that is not zero gives a positive number. -/
theorem mul_two_zpow_pos {m : ℕ} (hm : 0 < m) (e : ℤ) : (0 : ℚ) < m * 2 ^ e :=
  mul_pos (Nat.cast_pos.mpr hm) (two_zpow_pos e)

/-- A power of two over a smaller one is whole. -/
theorem two_zpow_div {d e : ℤ} (h : d ≤ e) :
    (2 : ℚ) ^ e / 2 ^ d = ((2 ^ (e - d).toNat : ℕ) : ℚ) := by
  rw [← zpow_sub₀ (by norm_num), Nat.cast_pow, ← zpow_natCast, Int.toNat_of_nonneg (by omega)]
  norm_num

/-- The space between the doubles does not shrink as numbers grow. -/
theorem unitExponent_mono {p q : ℚ} (hp : 0 < p) (h : p ≤ q) : unitExponent p ≤ unitExponent q :=
  max_le_max (Int.sub_le_sub_right (Int.log_mono_right hp h) 52) le_rfl

/-- Zero is rounded to itself. -/
@[simp] theorem nearestSize_zero : nearestSize 0 = 0 := by
  have h := roundEven_natCast 0
  simp only [Nat.cast_zero] at h
  simp [nearestSize, h]

/-- Rounding does not go below zero. -/
theorem nearestSize_nonneg {q : ℚ} (hq : 0 ≤ q) : 0 ≤ nearestSize q := by
  have hfloor : 0 ≤ ⌊q / 2 ^ unitExponent q⌋ :=
    Int.floor_nonneg.mpr (div_nonneg hq (two_zpow_pos _).le)
  have hround := hfloor.trans (floor_le_roundEven _)
  unfold nearestSize
  exact mul_nonneg (by exact_mod_cast hround) (two_zpow_pos _).le

/-- Rounding does not go beyond a power of two from above. -/
theorem two_zpow_le_nearestSize {q : ℚ} {e : ℤ} (h : 2 ^ e ≤ q) (hunit : unitExponent q ≤ e) :
    2 ^ e ≤ nearestSize q := by
  have hwhole := two_zpow_div hunit
  have hle := roundEven_mono (div_le_div_of_nonneg_right h (two_zpow_pos (unitExponent q)).le)
  rw [hwhole, roundEven_natCast] at hle
  unfold nearestSize
  rw [← div_le_iff₀ (two_zpow_pos _), hwhole]
  exact_mod_cast hle

/-- Rounding does not go beyond a power of two from below. -/
theorem nearestSize_le_two_zpow {q : ℚ} {e : ℤ} (h : q ≤ 2 ^ e) (hunit : unitExponent q ≤ e) :
    nearestSize q ≤ 2 ^ e := by
  have hwhole := two_zpow_div hunit
  have hle := roundEven_mono (div_le_div_of_nonneg_right h (two_zpow_pos (unitExponent q)).le)
  rw [hwhole, roundEven_natCast] at hle
  unfold nearestSize
  rw [← le_div_iff₀ (two_zpow_pos _), hwhole]
  exact_mod_cast hle

/-- Rounding keeps the order of numbers that are not negative. -/
theorem nearestSize_mono {p q : ℚ} (hp : 0 ≤ p) (h : p ≤ q) : nearestSize p ≤ nearestSize q := by
  rcases hp.eq_or_lt with rfl | hp
  · rw [nearestSize_zero]
    exact nearestSize_nonneg h
  have hq := hp.trans_le h
  rcases (unitExponent_mono hp h).eq_or_lt with heq | hlt
  · have hround := roundEven_mono (div_le_div_of_nonneg_right h (two_zpow_pos (unitExponent q)).le)
    unfold nearestSize
    rw [heq]
    exact mul_le_mul_of_nonneg_right (by exact_mod_cast hround) (two_zpow_pos _).le
  · -- The larger number is above a power of two that the smaller one is below.
    have hunit : unitExponent q = Int.log 2 q - 52 := by
      unfold unitExponent at hlt ⊢
      omega
    have hlog : Int.log 2 p + 1 ≤ Int.log 2 q := by
      unfold unitExponent at hlt
      omega
    have hle : p ≤ 2 ^ Int.log 2 q :=
      (Int.lt_zpow_succ_log_self one_lt_two p).le.trans (two_zpow_le_two_zpow.mpr hlog)
    calc nearestSize p ≤ 2 ^ Int.log 2 q := nearestSize_le_two_zpow hle (by omega)
      _ ≤ nearestSize q :=
        two_zpow_le_nearestSize (Int.zpow_log_le_self one_lt_two hq) (by omega)

/-! ## Doubles -/

/-- Whether a number that is not negative is a double, where exponents have no upper bound: a
multiple, of at most 53 bits, of a power of two that is not too small. -/
def IsDouble (q : ℚ) : Prop := ∃ (m : ℕ) (e : ℤ), m < 2 ^ 53 ∧ -1074 ≤ e ∧ q = m * 2 ^ e

/-- These doubles are not negative. -/
theorem IsDouble.nonneg {q : ℚ} (h : IsDouble q) : 0 ≤ q := by
  obtain ⟨m, e, -, -, rfl⟩ := h
  exact mul_nonneg (by positivity) (two_zpow_pos e).le

/-- Powers of two that are not too small are doubles. -/
theorem isDouble_two_zpow {e : ℤ} (h : -1074 ≤ e) : IsDouble (2 ^ e) :=
  ⟨1, e, by norm_num, h, by simp⟩

/-- The logarithm of a number comes from its whole part and the power of two beside it. -/
theorem log_mul_two_zpow {m : ℕ} (hm : 0 < m) {x : ℚ} (hlow : m ≤ x) (hhigh : x < m + 1) (e : ℤ) :
    Int.log 2 (x * 2 ^ e) = Nat.log 2 m + e := by
  have hpos := two_zpow_pos e
  have hx : 0 < x := (Nat.cast_pos.mpr hm).trans_le hlow
  -- The bounds on the logarithm are those of natural numbers, with their powers as integers.
  have hcast (n : ℕ) : ((2 ^ n : ℕ) : ℚ) = 2 ^ (n : ℤ) := by push_cast; rw [zpow_natCast]
  have hbelow : (2 : ℚ) ^ (Nat.log 2 m : ℤ) ≤ x := by
    rw [← hcast]
    exact le_trans (by exact_mod_cast Nat.pow_log_le_self 2 hm.ne') hlow
  have habove : x < 2 ^ (Nat.log 2 m + 1 : ℤ) := by
    have hsucc : (m : ℚ) + 1 ≤ ((2 ^ (Nat.log 2 m + 1) : ℕ) : ℚ) := by
      exact_mod_cast Nat.lt_pow_succ_log_self one_lt_two m
    rw [hcast] at hsucc
    exact hhigh.trans_le (by exact_mod_cast hsucc)
  refine le_antisymm ?_ ?_
  · refine Int.lt_add_one_iff.mp ((Int.lt_zpow_iff_log_lt one_lt_two (mul_pos hx hpos)).mp ?_)
    rw [show (Nat.log 2 m + e + 1 : ℤ) = Nat.log 2 m + 1 + e by ring]
    push_cast
    rw [two_zpow_add]
    exact mul_lt_mul_of_pos_right habove hpos
  · refine (Int.zpow_le_iff_le_log one_lt_two (mul_pos hx hpos)).mp ?_
    push_cast
    rw [two_zpow_add]
    exact mul_le_mul_of_nonneg_right hbelow hpos.le

/-- A double is rounded to itself. -/
theorem IsDouble.nearestSize_eq {q : ℚ} (h : IsDouble q) : nearestSize q = q := by
  obtain ⟨m, e, hm, he, rfl⟩ := h
  rcases m.eq_zero_or_pos with rfl | hpos
  · simp
  · have hlog : Nat.log 2 m < 53 := Nat.log_lt_of_lt_pow hpos.ne' hm
    -- The unit is no coarser than the exponent, so the double is a whole number of units.
    have hunit : unitExponent (m * 2 ^ e) ≤ e := by
      unfold unitExponent
      rw [log_mul_two_zpow hpos le_rfl (lt_add_one _)]
      omega
    have hwhole : (m : ℚ) * 2 ^ e / 2 ^ unitExponent (m * 2 ^ e) =
        ((m * 2 ^ (e - unitExponent (m * 2 ^ e)).toNat : ℕ) : ℚ) := by
      rw [mul_div_assoc, two_zpow_div hunit, Nat.cast_mul]
    unfold nearestSize
    rw [hwhole, roundEven_natCast, Int.cast_natCast, ← hwhole]
    exact div_mul_cancel₀ _ (two_zpow_pos _).ne'

/-- Rounding does not go beyond a double from above. -/
theorem IsDouble.le_nearestSize {d q : ℚ} (hd : IsDouble d) (h : d ≤ q) : d ≤ nearestSize q :=
  hd.nearestSize_eq.symm.trans_le (nearestSize_mono hd.nonneg h)

/-- Rounding does not go beyond a double from below. -/
theorem IsDouble.nearestSize_le {d q : ℚ} (hd : IsDouble d) (hq : 0 ≤ q) (h : q ≤ d) :
    nearestSize q ≤ d :=
  (nearestSize_mono hq h).trans_eq hd.nearestSize_eq

/-- Whole numbers up to `2 ^ 53` are doubles. -/
theorem isDouble_natCast {n : ℕ} (h : n ≤ 2 ^ 53) : IsDouble n := by
  rcases h.lt_or_eq with hlt | rfl
  · exact ⟨n, 0, hlt, by norm_num, by simp⟩
  · exact ⟨1, 53, by norm_num, by norm_num, by norm_num⟩

/-- One is a double. -/
theorem isDouble_one : IsDouble 1 := by exact_mod_cast isDouble_natCast (n := 1) (by norm_num)

/-- The first double beyond one. -/
theorem IsDouble.one_add_le {c : ℚ} (hc : IsDouble c) (h : 1 < c) : 1 + 2 ^ (-52 : ℤ) ≤ c := by
  obtain ⟨m, e, hm, -, rfl⟩ := hc
  -- A significand of 53 bits with a lower exponent stays below one.
  have hfine : -52 ≤ e := by
    by_contra hsmall
    have hlt : (m : ℚ) * 2 ^ e < 2 ^ (53 : ℤ) * 2 ^ (-53 : ℤ) :=
      mul_lt_mul (by exact_mod_cast hm) (two_zpow_le_two_zpow.mpr (by omega)) (two_zpow_pos e)
        (two_zpow_pos 53).le
    rw [← two_zpow_add] at hlt
    norm_num at hlt
    linarith
  have hwhole : (m : ℚ) * 2 ^ e = (m * 2 ^ (e + 52).toNat : ℕ) * 2 ^ (-52 : ℤ) := by
    rw [Nat.cast_mul, mul_assoc, Nat.cast_pow, Nat.cast_ofNat, ← zpow_natCast, ← two_zpow_add]
    congr 2
    omega
  have hunit : (2 : ℚ) ^ (-52 : ℤ) = 1 / 2 ^ 52 := by norm_num
  rw [hwhole, hunit] at h ⊢
  generalize m * 2 ^ (e + 52).toNat = k at h ⊢
  have hlt : (2 ^ 52 : ℚ) < k := by linarith
  have hsucc : (2 ^ 52 + 1 : ℚ) ≤ k := by exact_mod_cast Nat.succ_le_of_lt (by exact_mod_cast hlt)
  linarith

/-- A factor just below one makes a whole number smaller in spite of the rounding. -/
theorem nearestSize_natCast_mul_lt {d : ℕ} (hpos : 0 < d) (hd : d < 2 ^ 53) {u : ℚ} (hu : 0 ≤ u)
    (hle : u ≤ 1 - 2 ^ (-52 : ℤ)) : nearestSize (d * u) < d := by
  have hlog : Nat.log 2 d ≤ 52 := Nat.lt_succ_iff.mp (Nat.log_lt_of_lt_pow hpos.ne' hd)
  have hunit := two_zpow_pos (Nat.log 2 d - 52)
  -- The unit of the last place of `d` can be taken off without rounding.
  have hdouble : IsDouble (d - 2 ^ (Nat.log 2 d - 52 : ℤ)) := by
    have hwhole : d * 2 ^ (52 - Nat.log 2 d) < 2 ^ 53 := by
      calc d * 2 ^ (52 - Nat.log 2 d) < 2 ^ (Nat.log 2 d + 1) * 2 ^ (52 - Nat.log 2 d) :=
            Nat.mul_lt_mul_of_pos_right (Nat.lt_pow_succ_log_self one_lt_two d) (Nat.two_pow_pos _)
        _ = 2 ^ 53 := by rw [← pow_add]; congr 1; omega
    have hone : 1 ≤ d * 2 ^ (52 - Nat.log 2 d) := Nat.mul_pos hpos (Nat.two_pow_pos _)
    refine ⟨d * 2 ^ (52 - Nat.log 2 d) - 1, Nat.log 2 d - 52, by omega, by omega, ?_⟩
    have hcancel : (2 : ℚ) ^ (52 - Nat.log 2 d) * 2 ^ (Nat.log 2 d - 52 : ℤ) = 1 := by
      rw [← zpow_natCast, ← two_zpow_add, Nat.cast_sub hlog]
      norm_num
    rw [Nat.cast_sub hone]
    push_cast
    rw [sub_mul, mul_assoc, hcancel, mul_one, one_mul]
  have hbelow : (2 : ℚ) ^ (Nat.log 2 d - 52 : ℤ) ≤ d * 2 ^ (-52 : ℤ) := by
    rw [sub_eq_add_neg, two_zpow_add]
    refine mul_le_mul_of_nonneg_right ?_ (two_zpow_pos (-52)).le
    exact_mod_cast Nat.pow_log_le_self 2 hpos.ne'
  have hprod : (d : ℚ) * u ≤ d * (1 - 2 ^ (-52 : ℤ)) :=
    mul_le_mul_of_nonneg_left hle (Nat.cast_nonneg d)
  have hbound := hdouble.nearestSize_le (mul_nonneg (Nat.cast_nonneg d) hu) (by linarith)
  linarith

/-- The significand of a rounded number has 53 bits, or carries into one more. -/
theorem roundEven_unit_le (q : ℚ) : roundEven (q / 2 ^ unitExponent q) ≤ 2 ^ 53 := by
  have hlt : q < 2 ^ (53 + unitExponent q) :=
    (Int.lt_zpow_succ_log_self one_lt_two q).trans_le
      (two_zpow_le_two_zpow.mpr (by unfold unitExponent; omega))
  have hle : q / 2 ^ unitExponent q ≤ ((2 ^ 53 : ℤ) : ℚ) := by
    rw [div_le_iff₀ (two_zpow_pos _)]
    rw [two_zpow_add] at hlt
    exact_mod_cast hlt.le
  exact (roundEven_mono hle).trans_eq (roundEven_intCast _)

/-- The significand of a rounded number has its leading bit, but for the smallest numbers. -/
theorem le_roundEven_unit {q : ℚ} (hq : 0 < q) (h : unitExponent q ≠ -1074) :
    2 ^ 52 ≤ roundEven (q / 2 ^ unitExponent q) := by
  have hlog : 52 + unitExponent q = Int.log 2 q := by
    unfold unitExponent at h ⊢
    omega
  have hge : (2 : ℚ) ^ (52 + unitExponent q) ≤ q := hlog ▸ Int.zpow_log_le_self one_lt_two hq
  have hle : ((2 ^ 52 : ℤ) : ℚ) ≤ q / 2 ^ unitExponent q := by
    rw [le_div_iff₀ (two_zpow_pos _)]
    rw [two_zpow_add] at hge
    exact_mod_cast hge
  exact (roundEven_intCast _).symm.trans_le (roundEven_mono hle)

/-- Rounding makes doubles. -/
theorem isDouble_nearestSize {q : ℚ} (hq : 0 ≤ q) : IsDouble (nearestSize q) := by
  have hlow : -1074 ≤ unitExponent q := le_max_right _ _
  rcases hq.eq_or_lt with rfl | hpos
  · exact ⟨0, 0, by norm_num, by norm_num, by simp⟩
  have hnonneg : 0 ≤ roundEven (q / 2 ^ unitExponent q) :=
    (Int.floor_nonneg.mpr (div_nonneg hq (two_zpow_pos _).le)).trans (floor_le_roundEven _)
  obtain ⟨r, hr⟩ := Int.eq_ofNat_of_zero_le hnonneg
  have hle := roundEven_unit_le q
  unfold nearestSize
  rw [hr] at hle ⊢
  rcases (by omega : r < 2 ^ 53 ∨ r = 2 ^ 53) with hlt | rfl
  · exact ⟨r, unitExponent q, hlt, hlow, by norm_cast⟩
  · -- The rounding has carried into bit 54: the same number has half the significand.
    refine ⟨2 ^ 52, unitExponent q + 1, by norm_num, by omega, ?_⟩
    rw [two_zpow_add]
    push_cast
    ring

/-! ## All numbers -/

/-- The double nearest to a number; the sign stands apart. -/
def nearest (q : ℚ) : ℚ := if q < 0 then -nearestSize (-q) else nearestSize q

/-- A number that is not negative is rounded by its size. -/
theorem nearest_of_nonneg {q : ℚ} (h : 0 ≤ q) : nearest q = nearestSize q := if_neg h.not_gt

/-- Rounding goes the same way on both sides of zero. -/
theorem nearest_neg (q : ℚ) : nearest (-q) = -nearest q := by
  unfold nearest
  rcases lt_trichotomy q 0 with h | rfl | h
  · rw [if_pos h, if_neg (by linarith), neg_neg]
  · simp
  · rw [if_pos (by linarith), if_neg (by linarith), neg_neg]

/-- Rounding does not make a number negative. -/
theorem nearest_nonneg {q : ℚ} (h : 0 ≤ q) : 0 ≤ nearest q := by
  rw [nearest_of_nonneg h]
  exact nearestSize_nonneg h

/-- Rounding keeps the order. -/
theorem nearest_mono {p q : ℚ} (h : p ≤ q) : nearest p ≤ nearest q := by
  rcases le_or_gt 0 p with hp | hp
  · rw [nearest_of_nonneg hp, nearest_of_nonneg (hp.trans h)]
    exact nearestSize_mono hp h
  have hneg : nearest p = -nearestSize (-p) := if_pos hp
  -- A negative number is rounded to one that is not positive, which settles the order across zero.
  rcases le_or_gt 0 q with hq | hq
  · have hp' := nearestSize_nonneg (neg_nonneg.mpr hp.le)
    linarith [nearest_nonneg hq]
  · have hq' : nearest q = -nearestSize (-q) := if_pos hq
    have hmono := nearestSize_mono (neg_nonneg.mpr hq.le) (neg_le_neg h)
    linarith

/-- A double is rounded to itself, with its sign. -/
theorem IsDouble.nearest_eq {q : ℚ} (h : IsDouble q) : nearest q = q := by
  rw [nearest_of_nonneg h.nonneg, h.nearestSize_eq]

/-- Whole numbers are doubles up to `2 ^ 53`. -/
theorem nearest_intCast {i : ℤ} (h : |i| ≤ 2 ^ 53) : nearest i = i := by
  rw [abs_le] at h
  rcases Int.eq_nat_or_neg i with ⟨n, rfl | rfl⟩
  · rw [Int.cast_natCast, (isDouble_natCast (by omega)).nearest_eq]
  · rw [Int.cast_neg, Int.cast_natCast, nearest_neg, (isDouble_natCast (by omega)).nearest_eq]

end Klaxon.Double
