/-!
# The double nearest to a decimal number

`nearest m e` is the double nearest to `m * 10 ^ e`, the one with an even significand where two are
equally near. The number is scaled so that its whole part has 53 bits, or fewer where it is below
the smallest normal double, and is then rounded once, in exact arithmetic on natural numbers
(`two_mul_roundDiv_mul_le`, `two_mul_le_roundDiv`: by at most half a unit).
-/

namespace Klaxon.Decimal

/-- The quotient rounded to the nearest natural number, a tie to the even one. -/
def roundDiv (num den : Nat) : Nat :=
  let q := num / den
  let r := num % den
  if 2 * r < den then q
  else if den < 2 * r then q + 1
  else q + q % 2

/-- A rounded quotient is at most half a unit too large. -/
theorem two_mul_roundDiv_mul_le (num den : Nat) :
    2 * (roundDiv num den * den) ≤ 2 * num + den := by
  have hnum := Nat.div_add_mod num den
  have hcomm : num / den * den = den * (num / den) := Nat.mul_comm ..
  simp only [roundDiv]
  split
  · omega
  · split
    · rw [Nat.add_mul]
      omega
    · rcases Nat.mod_two_eq_zero_or_one (num / den) with h | h <;> rw [h, Nat.add_mul] <;> omega

/-- A rounded quotient is at most half a unit too small. -/
theorem two_mul_le_roundDiv (num : Nat) {den : Nat} (h : 0 < den) :
    2 * num ≤ 2 * (roundDiv num den * den) + den := by
  have hnum := Nat.div_add_mod num den
  have hmod := Nat.mod_lt num h
  have hcomm : num / den * den = den * (num / den) := Nat.mul_comm ..
  simp only [roundDiv]
  split
  · omega
  · split
    · rw [Nat.add_mul]
      omega
    · rw [Nat.add_mul]
      omega

/-- A ratio over `2 ^ q`, as a ratio. -/
def overPower (num den : Nat) (q : Int) : Nat × Nat :=
  (num * Nat.pow 2 (-q).toNat, den * Nat.pow 2 q.toNat)

/-- The exponent `q` for which the ratio over `2 ^ q` has a whole part of 53 bits, at least that of
the smallest double. -/
def binaryExponent (num den : Nat) : Int :=
  let low : Int := (Nat.log2 num : Int) - Nat.log2 den - 53
  let (a, b) := overPower num den low
  max (-1074) (if Nat.pow 2 53 ≤ a / b then low + 1 else low)

/-- The positive double nearest to a ratio of positive numbers. -/
def nearestRatio (num den : Nat) : Float :=
  let q := binaryExponent num den
  let (a, b) := overPower num den q
  let significand := roundDiv a b
  -- A significand of `2 ^ 53` carries into the exponent field, which is what it has to do.
  let bits := (q + 1074).toNat * Nat.pow 2 52 + significand
  if 2047 * Nat.pow 2 52 ≤ bits then 1.0 / 0.0 else Float.ofBits (UInt64.ofNat bits)

/-- The double nearest to `m * 10 ^ e`. -/
def nearest (m : Nat) (e : Int) : Float :=
  let digits : Int := (Nat.toDigits 10 m).length
  if m = 0 || digits + e < -400 then 0.0
  else if 400 < digits + e then 1.0 / 0.0
  else nearestRatio (m * Nat.pow 10 e.toNat) (Nat.pow 10 (-e).toNat)

end Klaxon.Decimal
