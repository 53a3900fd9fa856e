import Klaxon.Channel.Retry
import Klaxon.Proofs.Double.Operation

/-!
# Powers in doubles

`RetryPolicy.power` squares doubles. Followed with numbers it is `roundedPower`, in which every
product is rounded and the exponent has no upper bound (`holds_power`, `value?_power_neg`).

From a double on that is at least one, `roundedPower` grows with the exponent
(`roundedPower_mono`), although the roundings for one exponent have little to do with those for the
next. Of two exponents in a row, the even one is compared with the odd one above it by the factor
that the latter has taken up, and the odd one with the even one above it by the carry into the
square (`roundedPowerInto_le_succ`).
-/

namespace Klaxon.RetryPolicy

open Double

/-! ## Powers of numbers -/

/-- Takes up a factor where the exponent is odd. -/
def absorb (acc base : ℚ) (n : ℕ) : ℚ := if n % 2 = 1 then nearestSize (acc * base) else acc

/-- The power of `powerInto` with numbers for doubles: every product is rounded. -/
def roundedPowerInto (acc base : ℚ) (n : ℕ) : ℚ :=
  if n / 2 = 0 then absorb acc base n
  else roundedPowerInto (absorb acc base n) (nearestSize (base * base)) (n / 2)
termination_by n
decreasing_by omega

/-- The power of a number with a whole exponent where every product is rounded. -/
def roundedPower (base : ℚ) (n : ℕ) : ℚ := roundedPowerInto 1 base n

/-- The product of two numbers from one on stays there. -/
theorem one_le_nearestSize_mul {a b : ℚ} (ha : 1 ≤ a) (hb : 1 ≤ b) : 1 ≤ nearestSize (a * b) :=
  isDouble_one.le_nearestSize (one_le_mul_of_one_le_of_one_le ha hb)

/-- Taking up a factor keeps the accumulated product from one on. -/
theorem one_le_absorb {a b : ℚ} (n : ℕ) (ha : 1 ≤ a) (hb : 1 ≤ b) : 1 ≤ absorb a b n := by
  unfold absorb
  split_ifs
  · exact one_le_nearestSize_mul ha hb
  · exact ha

/-- From a product and a base from one on the whole power stays there. -/
theorem one_le_roundedPowerInto {a b : ℚ} (n : ℕ) (ha : 1 ≤ a) (hb : 1 ≤ b) :
    1 ≤ roundedPowerInto a b n := by
  -- The recursion halves the exponent, so that the induction is on all smaller ones.
  induction n using Nat.strong_induction_on generalizing a b with
  | _ n ih =>
    rw [roundedPowerInto]
    split_ifs
    · exact one_le_absorb n ha hb
    · exact ih (n / 2) (by omega) (one_le_absorb n ha hb) (one_le_nearestSize_mul hb hb)

/-- The rounded powers of a number from one on are from one on. -/
theorem one_le_roundedPower {c : ℚ} (hc : 1 ≤ c) (n : ℕ) : 1 ≤ roundedPower c n :=
  one_le_roundedPowerInto n le_rfl hc

/-! ## Reciprocals -/

/-- The number of a reciprocal that a double holds, which is zero for infinity. -/
def roundedReciprocal (q : ℚ) : ℚ := if q < 2 ^ (1024 : ℤ) then nearestSize (1 / q) else 0

/-- A rounded reciprocal is not negative. -/
theorem roundedReciprocal_nonneg {q : ℚ} (hq : 1 ≤ q) : 0 ≤ roundedReciprocal q := by
  unfold roundedReciprocal
  split_ifs
  · exact nearestSize_nonneg (one_div_nonneg.mpr (by linarith))
  · exact le_rfl

/-- Reciprocals shrink. -/
theorem roundedReciprocal_anti {q r : ℚ} (hq : 1 ≤ q) (h : q ≤ r) :
    roundedReciprocal r ≤ roundedReciprocal q := by
  rw [roundedReciprocal]
  split_ifs with hr
  · rw [roundedReciprocal, if_pos (h.trans_lt hr)]
    -- Both powers are numbers: the rounding keeps the order of the reciprocals.
    exact nearestSize_mono (one_div_nonneg.mpr (by linarith))
      (one_div_le_one_div_of_le (by linarith) h)
  · -- The larger power has overflowed, and its reciprocal is zero.
    exact roundedReciprocal_nonneg hq

/-- One is its own reciprocal. -/
theorem roundedReciprocal_one : roundedReciprocal 1 = 1 := by
  rw [roundedReciprocal, if_pos (one_lt_zpow₀ one_lt_two (by norm_num)), div_one,
    isDouble_one.nearestSize_eq]

/-- From one on no reciprocal exceeds one. -/
theorem roundedReciprocal_le_one {q : ℚ} (hq : 1 ≤ q) : roundedReciprocal q ≤ 1 :=
  (roundedReciprocal_anti le_rfl hq).trans_eq roundedReciprocal_one

/-! ## Powers of doubles -/

/-- One round of squaring, as an equation that can be rewritten with. -/
theorem powerInto_eq (x y : Float) (n : ℕ) :
    powerInto x y n = if n / 2 = 0 then (if n % 2 = 1 then x * y else x)
      else powerInto (if n % 2 = 1 then x * y else x) (y * y) (n / 2) := by
  rw [powerInto]

/-- What squaring doubles gives holds what squaring the numbers gives, with every product rounded.
-/
theorem holds_powerInto {x y : Float} {a b : ℚ} (n : ℕ) (hx : Holds x a) (hy : Holds y b)
    (ha : 1 ≤ a) (hb : 1 ≤ b) : Holds (powerInto x y n) (roundedPowerInto a b n) := by
  induction n using Nat.strong_induction_on generalizing x y a b with
  | _ n ih =>
    -- The accumulator is followed through the round first; then the halved exponent is left.
    have hacc : Holds (if n % 2 = 1 then x * y else x) (absorb a b n) := by
      unfold absorb
      split_ifs
      · exact hx.mul hy ha hb
      · exact hx
    rw [powerInto_eq, roundedPowerInto]
    by_cases hlast : n / 2 = 0
    · rw [if_pos hlast, if_pos hlast]
      exact hacc
    · rw [if_neg hlast, if_neg hlast]
      exact ih (n / 2) (by omega) hacc (hy.mul hy hb hb) (one_le_absorb n ha hb)
        (one_le_nearestSize_mul hb hb)

section

variable {base : Float} {c : ℚ}

/-- A power with an exponent that is not negative holds the rounded power. -/
theorem holds_power (h : Holds base c) (hc : 1 ≤ c) {e : ℤ} (he : 0 ≤ e) :
    Holds (power base e) (roundedPower c e.natAbs) := by
  rw [power, if_neg he.not_gt]
  exact holds_powerInto _ (.finite value?_one) h le_rfl hc

/-- A power with a negative exponent has a number, the rounded reciprocal. -/
theorem value?_power_neg (h : Holds base c) (hc : 1 ≤ c) {e : ℤ} (he : e < 0) :
    value? (power base e) = some (roundedReciprocal (roundedPower c e.natAbs)) := by
  rw [power, if_pos he]
  exact (holds_powerInto _ (.finite value?_one) h le_rfl hc).value?_one_div
    (one_le_roundedPower hc _)

end

/-! ## Growth -/

/-- A larger product stays larger when it takes up the factor. -/
theorem absorb_mono {a a' b : ℚ} (n : ℕ) (ha : 0 ≤ a) (hb : 0 ≤ b) (h : a ≤ a') :
    absorb a b n ≤ absorb a' b n := by
  unfold absorb
  split_ifs
  · exact nearestSize_mono (mul_nonneg ha hb) (mul_le_mul_of_nonneg_right h hb)
  · exact h

/-- A larger accumulated product makes the whole power larger. -/
theorem roundedPowerInto_mono {a a' b : ℚ} (n : ℕ) (ha : 1 ≤ a) (hb : 1 ≤ b) (h : a ≤ a') :
    roundedPowerInto a b n ≤ roundedPowerInto a' b n := by
  induction n using Nat.strong_induction_on generalizing a a' b with
  | _ n ih =>
    have habsorb := absorb_mono n (zero_le_one.trans ha) (zero_le_one.trans hb) h
    rw [roundedPowerInto, roundedPowerInto.eq_1 a']
    split_ifs
    · exact habsorb
    · exact ih (n / 2) (by omega) (one_le_absorb n ha hb) (one_le_nearestSize_mul hb hb) habsorb

/-- The exponent zero can be halved like the others. -/
theorem roundedPowerInto_half (a b : ℚ) (n : ℕ) :
    roundedPowerInto a b n =
      roundedPowerInto (absorb a b n) (nearestSize (b * b)) (n / 2) := by
  rw [roundedPowerInto]
  split_ifs with hlast
  · -- Nothing is left of the exponent: one more round takes up nothing.
    rw [hlast, roundedPowerInto]
    rfl
  · rfl

/-- One more factor does not make a power smaller, even where the accumulated product is up to a
factor ahead. -/
theorem roundedPowerInto_le_succ {a c : ℚ} (n : ℕ) (hc : IsDouble c) (ha : 1 ≤ a) (h : a ≤ c) :
    roundedPowerInto a c n ≤ roundedPowerInto 1 c (n + 1) := by
  have hone : 1 ≤ c := ha.trans h
  have hsquare := one_le_nearestSize_mul hone hone
  induction n using Nat.strong_induction_on generalizing a c with
  | _ n ih =>
    rw [roundedPowerInto_half a, roundedPowerInto_half 1]
    rcases Nat.mod_two_eq_zero_or_one n with heven | hodd
    · -- The larger exponent takes up the factor, and what is left is the same.
      rw [absorb, if_neg (by omega), absorb, if_pos (by omega), one_mul, hc.nearestSize_eq,
        show (n + 1) / 2 = n / 2 by omega]
      exact roundedPowerInto_mono (n / 2) ha hsquare h
    · -- The larger exponent carries; the smaller one is behind by less than the square.
      rw [absorb, if_pos hodd, absorb, if_neg (by omega), show (n + 1) / 2 = n / 2 + 1 by omega]
      have hle : nearestSize (a * c) ≤ nearestSize (c * c) :=
        nearestSize_mono (by positivity) (mul_le_mul_of_nonneg_right h (by linarith))
      exact ih (n / 2) (by omega) (isDouble_nearestSize (by positivity))
        (one_le_nearestSize_mul ha hone) hle hsquare (one_le_nearestSize_mul hsquare hsquare)

/-- The rounded powers of a double from one on grow with the exponent. -/
theorem roundedPower_mono {c : ℚ} (hc : IsDouble c) (hone : 1 ≤ c) : Monotone (roundedPower c) :=
  monotone_nat_of_le_succ fun n => roundedPowerInto_le_succ n hc le_rfl hone

/-- The square is rounded once. -/
theorem roundedPower_two {c : ℚ} (hc : 1 ≤ c) : roundedPower c 2 = nearestSize (c * c) := by
  have hsquare : IsDouble (nearestSize (c * c)) := isDouble_nearestSize (by positivity)
  rw [roundedPower, roundedPowerInto_half, roundedPowerInto]
  simp only [absorb]
  norm_num [hsquare.nearestSize_eq]

/-- From the square on a power is at least two units beyond one, unless it is one. -/
theorem one_add_le_roundedPower {c : ℚ} (hc : IsDouble c) (hone : 1 < c) {n : ℕ} (hn : 2 ≤ n) :
    1 + 2 ^ (-51 : ℤ) ≤ roundedPower c n := by
  have hdouble : IsDouble (1 + 2 ^ (-51 : ℤ)) :=
    ⟨2 ^ 51 + 1, -51, by norm_num, by norm_num, by norm_num⟩
  -- The double after one is `1 + 2 ^ (-52)`, and its square is two units beyond one.
  have hstep := hc.one_add_le hone
  have hsquare : 1 + 2 ^ (-51 : ℤ) ≤ c * c := by
    norm_num at hstep ⊢
    nlinarith
  calc 1 + 2 ^ (-51 : ℤ) ≤ nearestSize (c * c) := hdouble.le_nearestSize hsquare
    _ = roundedPower c 2 := (roundedPower_two hone.le).symm
    _ ≤ roundedPower c n := roundedPower_mono hc hone.le hn

/-- The reciprocal of such a power is at least one unit below one. -/
theorem roundedReciprocal_le {q : ℚ} (hq : 1 + 2 ^ (-51 : ℤ) ≤ q) :
    roundedReciprocal q ≤ 1 - 2 ^ (-52 : ℤ) := by
  have hdouble : IsDouble (1 - 2 ^ (-52 : ℤ)) :=
    ⟨2 ^ 52 - 1, -52, by norm_num, by norm_num, by norm_num⟩
  have hpos : 0 < q := (add_pos one_pos (two_zpow_pos (-51))).trans_le hq
  unfold roundedReciprocal
  split_ifs
  · -- `1 - 2 ^ (-52)` is a double, and no rounding passes a double.
    refine hdouble.nearestSize_le (one_div_pos.mpr hpos).le ?_
    rw [div_le_iff₀ hpos]
    norm_num at hq ⊢
    linarith
  · exact hdouble.nonneg

/-! ## Powers of powers of two -/

/-- Powers of two with a natural exponent are doubles, whatever the size. -/
theorem nearestSize_two_pow (k : ℕ) : nearestSize (2 ^ k) = 2 ^ k := by
  have h := (isDouble_two_zpow (e := k) (by omega)).nearestSize_eq
  rwa [zpow_natCast] at h

/-- With powers of two, taking up a factor adds the exponents. -/
theorem absorb_two_pow (i j n : ℕ) : absorb (2 ^ i) (2 ^ j) n = 2 ^ (i + j * (n % 2)) := by
  unfold absorb
  rcases Nat.mod_two_eq_zero_or_one n with h | h <;> rw [h]
  · rfl
  · rw [if_pos rfl, ← pow_add, nearestSize_two_pow, mul_one]

/-- The powers of a power of two need no rounding. -/
theorem roundedPowerInto_two_pow (i j n : ℕ) :
    roundedPowerInto (2 ^ i) (2 ^ j) n = 2 ^ (i + j * n) := by
  induction n using Nat.strong_induction_on generalizing i j with
  | _ n ih =>
    rcases n.eq_zero_or_pos with rfl | hpos
    · rw [roundedPowerInto]
      rfl
    · rw [roundedPowerInto_half, absorb_two_pow, ← pow_add, nearestSize_two_pow,
        ih (n / 2) (by omega)]
      congr 1
      -- The squared base counts twice for each half of the exponent, and the odd rest once.
      have hn := Nat.mod_add_div n 2
      calc i + j * (n % 2) + (j + j) * (n / 2) = i + j * (n % 2 + 2 * (n / 2)) := by ring
        _ = i + j * n := by rw [hn]

/-- A rounded power of a power of two is the exact one. -/
theorem roundedPower_two_pow (j n : ℕ) : roundedPower (2 ^ j) n = 2 ^ (j * n) := by
  have h := roundedPowerInto_two_pow 0 j n
  rwa [pow_zero, Nat.zero_add] at h

end Klaxon.RetryPolicy
