import Mathlib

/-!
# Doubles as words of 64 bits

A double is kept as a word and taken apart for every operation (`UnpackedFloat.unpack`), and the
outcome is put together again (`UnpackedFloat.pack`). A significand and an exponent that come out of
a word are `Canonical`, and the exponent is at most 971. Canonical ones survive the way into a word
and back where the exponent fits, and become infinite where it does not (`unpack_pack_finite`,
`unpack_pack_overflow`).
-/

namespace Klaxon.Double

open Float.Model Float.Model.UnpackedFloat

/-- The significands and exponents of doubles, where the exponent has no upper bound: there are 53
bits, and the leading one is missing at the lowest exponent only. -/
structure Canonical (m : ℕ) (e : ℤ) : Prop where
  lt : m < 2 ^ 53
  lowest_le : -1074 ≤ e
  normal : 2 ^ 52 ≤ m ∨ e = -1074

/-- A significand with its leading one, which is not in the word. -/
theorem toNat_one_append (m : BitVec 52) : (1#1 ++ m).toNat = 2 ^ 52 + m.toNat := by
  rw [BitVec.toNat_append, ← Nat.shiftLeft_add_eq_or_of_lt m.isLt]
  simp [Nat.shiftLeft_eq]

/-! ## Taking words apart -/

/-- What the three parts of a word stand for. -/
def datum (s : Sign) (e : BitVec 11) (m : BitVec 52) : UnpackedFloat :=
  if e = -1#11 then if m = 0#52 then .infinity s else .notANumber
  else if e = 0#11 then
    if h : m = 0#52 then .zero s
    else
      .finite s m.toNat (e.toNat - 1075 + 1) (by simpa [BitVec.toNat_pos, BitVec.pos_iff_ne_zero])
  else .finite s (1#1 ++ m).toNat (e.toNat - 1075) (by rw [toNat_one_append]; omega)

/-- A word is taken apart into sign, exponent and significand, and `datum` says what these are. -/
theorem unpack_eq_datum (b : BitVec 64) :
    UnpackedFloat.unpack Format.binary64 b =
      datum (Sign.ofBitVec (@unpackSign Format.binary64 b)) (@unpackExponent Format.binary64 b)
        (@unpackMantissa Format.binary64 b) := by
  rfl

/-- Finite data that come out of a word are canonical. -/
theorem canonical_of_datum {s s' : Sign} {b : BitVec 11} {f : BitVec 52} {m : ℕ} {e : ℤ}
    {hm : 0 < m} (h : datum s b f = .finite s' m e hm) : Canonical m e ∧ e ≤ 971 := by
  have hb := b.isLt
  have hf := f.isLt
  unfold datum at h
  -- What is left are the subnormal numbers, without a leading bit, and the normal ones.
  split_ifs at h with hall _ hnone
  · obtain ⟨-, rfl, rfl⟩ := UnpackedFloat.finite.inj h
    rw [hnone]
    exact ⟨⟨by omega, by decide, .inr rfl⟩, by decide⟩
  · obtain ⟨-, rfl, rfl⟩ := UnpackedFloat.finite.inj h
    have hpos : b.toNat ≠ 0 := fun h => hnone (BitVec.eq_of_toNat_eq h)
    have hlt : b.toNat ≠ 2047 := fun h => hall (BitVec.eq_of_toNat_eq h)
    have hone := toNat_one_append f
    exact ⟨⟨by omega, by omega, .inl (by omega)⟩, by omega⟩

/-- What comes out of a double is canonical, and its exponent fits. -/
theorem canonical_of_unpack {x : Float.Model} {s : Sign} {m : ℕ} {e : ℤ} {hm : 0 < m}
    (h : x.unpack = .finite s m e hm) : Canonical m e ∧ e ≤ 971 :=
  canonical_of_datum ((unpack_eq_datum _).symm.trans h)

/-! ## Putting words together -/

/-- What is put together from three parts is taken apart into them. -/
theorem unpack_packComponents (s : Sign) (e : BitVec 11) (m : BitVec 52) :
    UnpackedFloat.unpack Format.binary64 (packComponents Format.binary64 s e m) = datum s e m := by
  rw [unpack_eq_datum, unpackSign_packComponents, unpackExponent_packComponents,
    unpackMantissa_packComponents, Sign.ofBitVec_toBitVec]

/-- Zero survives the way into a word and back. -/
@[simp] theorem unpack_pack_zero (s : Sign) : (Float.Model.pack (.zero s)).unpack = .zero s :=
  unpack_packComponents s 0#11 0#52

/-- Infinity survives the way into a word and back. -/
@[simp] theorem unpack_pack_infinity (s : Sign) :
    (Float.Model.pack (.infinity s)).unpack = .infinity s :=
  unpack_packComponents s (-1#11) 0#52

/-- What is not a number is not one after the way into a word and back. -/
@[simp] theorem unpack_pack_notANumber : (Float.Model.pack .notANumber).unpack = .notANumber :=
  unpack_packComponents .positive (-1#11) (1#52 <<< 51)

/-- The word of a finite datum, by its size: it overflows, or the leading one is left out, or there
is no leading one. -/
theorem pack_finite (s : Sign) (m : ℕ) (e : ℤ) (hm : 0 < m) :
    UnpackedFloat.pack Format.binary64 (.finite s m e hm) =
      if 2048 ≤ (e + 1075).toNat + 1 then packedInfinity Format.binary64 s
      else if m.log2 + 1 = 53 then
        packComponents Format.binary64 s (BitVec.ofNat 11 (e + 1075).toNat) (BitVec.ofNat 52 m)
      else packComponents Format.binary64 s 0#11 (BitVec.ofNat 52 m) := by
  have hbias : e + Format.binary64.exponentBias + Format.binary64.mantissaBitsWithoutImplicit =
      e + 1075 := add_assoc e 1023 52
  unfold UnpackedFloat.pack
  rw [← hbias]
  rfl

/-- A canonical datum survives the way into a word and back. -/
theorem unpack_pack_finite {s : Sign} {m : ℕ} {e : ℤ} {hm : 0 < m} (hc : Canonical m e)
    (he : e ≤ 971) : (Float.Model.pack (.finite s m e hm)).unpack = .finite s m e hm := by
  have hlt := hc.lt
  have hlow := hc.lowest_le
  have hexp : (BitVec.ofNat 11 (e + 1075).toNat).toNat = (e + 1075).toNat := by
    rw [BitVec.toNat_ofNat, Nat.mod_eq_of_lt (by omega)]
  change UnpackedFloat.unpack _ (UnpackedFloat.pack _ _) = _
  rw [pack_finite, if_neg (by omega)]
  -- The leading bit is left out of the word of a normal number; a subnormal one is stored as it is.
  rcases le_or_gt (2 ^ 52) m with hnormal | hsub
  · have hlog : m.log2 = 52 := by
      rw [Nat.log2_eq_iff hm.ne']
      omega
    have hone : (1#1 ++ BitVec.ofNat 52 m).toNat = m := by
      rw [toNat_one_append, BitVec.toNat_ofNat]
      omega
    have hall : BitVec.ofNat 11 (e + 1075).toNat ≠ -1#11 := fun h => by
      have := congrArg BitVec.toNat h
      simp only [hexp, BitVec.toNat_neg, BitVec.toNat_ofNat] at this
      omega
    have hnone : BitVec.ofNat 11 (e + 1075).toNat ≠ 0#11 := fun h => by
      have := congrArg BitVec.toNat h
      simp only [hexp, BitVec.toNat_ofNat] at this
      omega
    rw [hlog, if_pos rfl, unpack_packComponents, datum, if_neg hall, if_neg hnone]
    simp only [hone, hexp, UnpackedFloat.finite.injEq, true_and]
    omega
  · have hlog : m.log2 + 1 ≠ 53 := by
      have := (Nat.log2_lt hm.ne').mpr hsub
      omega
    have hfrac : (BitVec.ofNat 52 m).toNat = m := by
      rw [BitVec.toNat_ofNat, Nat.mod_eq_of_lt hsub]
    have hzero : BitVec.ofNat 52 m ≠ 0#52 := fun h => by
      have := congrArg BitVec.toNat h
      simp only [hfrac, BitVec.toNat_ofNat] at this
      omega
    rw [if_neg hlog, unpack_packComponents, datum, if_neg (by decide), if_pos rfl, dif_neg hzero]
    simp only [hfrac, UnpackedFloat.finite.injEq, true_and, BitVec.toNat_ofNat]
    have := hc.normal
    omega

/-- A datum with too large an exponent becomes infinite. -/
theorem unpack_pack_overflow {s : Sign} {m : ℕ} {e : ℤ} {hm : 0 < m} (he : 971 < e) :
    (Float.Model.pack (.finite s m e hm)).unpack = .infinity s := by
  change UnpackedFloat.unpack _ (UnpackedFloat.pack _ _) = _
  rw [pack_finite, if_pos (by omega)]
  exact unpack_packComponents s (-1#11) 0#52

end Klaxon.Double
