import Klaxon.Proofs.Double.Value

/-!
# Operations on doubles

Products (`holds_mul`), quotients (`holds_div`), and the conversions from and to whole numbers, each
as the rounding of the exact outcome. Products of infinities are only needed where both factors are
at least one; there infinity stands for a number beyond all doubles (`Holds.mul`), and so it does
where one is divided by it (`Holds.value?_one_div`).
-/

namespace Klaxon.Double

open Float.Model Float.Model.UnpackedFloat

/-! ## Products -/

/-- The product of the significands has no fewer bits than the rounding needs. -/
theorem add_le_unitExponent {m n : ℕ} {e f : ℤ} (hm : 0 < m) (hn : 0 < n) (hc : Canonical m e)
    (hd : Canonical n f) : e + f ≤ unitExponent ((m * n : ℕ) * 2 ^ (e + f)) := by
  have hpos : 0 < m * n := Nat.mul_pos hm hn
  have hlow := hc.lowest_le
  have hlow' := hd.lowest_le
  rw [unitExponent, log_mul_two_zpow hpos le_rfl (lt_add_one _)]
  -- Either the product has its leading bit, or both factors are below the smallest normal number.
  rcases le_or_gt (2 ^ 52) (m * n) with hlead | hshort
  · have hlog : 52 ≤ Nat.log 2 (m * n) := Nat.le_log_of_pow_le one_lt_two hlead
    omega
  · have hm' : m < 2 ^ 52 := (Nat.le_mul_of_pos_right m hn).trans_lt hshort
    have hn' : n < 2 ^ 52 := (Nat.le_mul_of_pos_left n hm).trans_lt hshort
    have he := hc.normal.resolve_left hm'.not_ge
    have hf := hd.normal.resolve_left hn'.not_ge
    omega

/-- The product of finite data that are not negative is rounded once. -/
theorem mul_denotes {s t : Sign} {p q : ℚ} {u v : UnpackedFloat} (hu : Denotes s p u)
    (hv : Denotes t q v) : Denotes (s * t) (nearestSize (p * q)) (u.mul Format.binary64 v) := by
  -- Zero absorbs the other factor; two finite data multiply their significands and add exponents.
  cases hu with
  | zero =>
    rw [zero_mul, nearestSize_zero]
    cases hv <;> exact .zero
  | @finite m e hm hc =>
    cases hv with
    | zero =>
      rw [mul_zero, nearestSize_zero]
      exact .zero
    | @finite n f hn hd =>
      have hvalue : (m : ℚ) * 2 ^ e * (n * 2 ^ f) = (m * n : ℕ) * 2 ^ (e + f) := by
        rw [two_zpow_add]
        push_cast
        ring
      rw [hvalue]
      exact roundWithAccuracy_denotes (s * t) (Nat.mul_pos hm hn) (represents_exact _)
        (add_le_unitExponent hm hn hc hd)

/-- The product of finite doubles that are not negative. -/
theorem holds_mul {x y : Float} {p q : ℚ} (hx : value? x = some p) (hy : value? y = some q)
    (hp : 0 ≤ p) (hq : 0 ≤ q) : Holds (x * y) (nearestSize (p * q)) := by
  obtain ⟨s, hu, hs⟩ := exists_denotes_of_nonneg hx hp
  obtain ⟨t, hv, ht⟩ := exists_denotes_of_nonneg hy hq
  refine (mul_denotes hu hv).holds_pack ?_
  rcases hs with rfl | rfl
  · exact .inl (by rw [zero_mul, nearestSize_zero])
  rcases ht with rfl | rfl
  · exact .inl (by rw [mul_zero, nearestSize_zero])
  · exact .inr rfl

/-- What a positive outcome looks like in a word. -/
theorem Holds.unpack_positive {x : Float} {q : ℚ} (h : Holds x q) (hq : 0 < q) :
    x.toModel.unpack = .infinity .positive ∨
      ∃ m e hm, x.toModel.unpack = .finite .positive m e hm := by
  rcases h with h | h
  · obtain ⟨s, hu, hs⟩ := exists_denotes_of_nonneg h hq.le
    obtain rfl := hs.resolve_left hq.ne'
    generalize x.toModel.unpack = u at hu
    cases hu with
    | zero => exact absurd hq (lt_irrefl 0)
    | finite hm hc => exact .inr ⟨_, _, hm, rfl⟩
  · exact .inl h

/-- A product with infinity is infinite, where the other factor is positive. -/
theorem unpack_mul_infinity {x y : Float} {q : ℚ} (hx : x.toModel.unpack = .infinity .positive)
    (hy : Holds y q) (hq : 0 < q) :
    (x * y).toModel.unpack = .infinity .positive ∧
      (y * x).toModel.unpack = .infinity .positive := by
  change (Float.Model.pack (UnpackedFloat.mul _ x.toModel.unpack y.toModel.unpack)).unpack = _ ∧
    (Float.Model.pack (UnpackedFloat.mul _ y.toModel.unpack x.toModel.unpack)).unpack = _
  rw [hx]
  rcases hy.unpack_positive hq with hu | ⟨m, e, hm, hu⟩ <;> rw [hu] <;>
    exact ⟨unpack_pack_infinity .positive, unpack_pack_infinity .positive⟩

/-- The product of doubles from one on, where infinity is a number beyond all doubles. -/
theorem Holds.mul {x y : Float} {p q : ℚ} (hx : Holds x p) (hy : Holds y q) (hp : 1 ≤ p)
    (hq : 1 ≤ q) : Holds (x * y) (nearestSize (p * q)) := by
  have hlimit : IsDouble (2 ^ (1024 : ℤ)) := isDouble_two_zpow (by norm_num)
  rcases id hx with hx' | ⟨hx', hlarge⟩
  · rcases id hy with hy' | ⟨hy', hlarge⟩
    · exact holds_mul hx' hy' (by linarith) (by linarith)
    · -- One factor is infinite: the product is, and what it stands for is beyond all doubles too.
      exact .infinite (unpack_mul_infinity hy' hx (by linarith)).2
        (hlimit.le_nearestSize (by nlinarith))
  · exact .infinite (unpack_mul_infinity hx' hy (by linarith)).1
      (hlimit.le_nearestSize (by nlinarith))

/-! ## Quotients -/

/-- The logarithm of a quotient, up to one. -/
theorem le_log_div {m n : ℕ} (hm : 0 < m) (hn : 0 < n) (e f : ℤ) :
    (m.log2 + e) - (n.log2 + f) - 1 ≤ Int.log 2 ((m : ℚ) * 2 ^ e / (n * 2 ^ f)) := by
  have hpos := mul_two_zpow_pos hn f
  refine (Int.zpow_le_iff_le_log one_lt_two (div_pos (mul_two_zpow_pos hm e) hpos)).mp ?_
  have hlow : (2 : ℚ) ^ ((m.log2 : ℤ) + e) ≤ m * 2 ^ e := by
    rw [two_zpow_add]
    refine mul_le_mul_of_nonneg_right ?_ (two_zpow_pos e).le
    exact_mod_cast Nat.log2_self_le hm.ne'
  have hhigh : (n : ℚ) * 2 ^ f ≤ 2 ^ ((n.log2 + 1 : ℤ) + f) := by
    rw [two_zpow_add]
    refine mul_le_mul_of_nonneg_right ?_ (two_zpow_pos f).le
    exact_mod_cast (Nat.lt_log2_self (n := n)).le
  have hsplit : (m.log2 + e) - (n.log2 + f) - 1 = (m.log2 + e) - ((n.log2 + 1 : ℤ) + f) := by ring
  push_cast
  rw [hsplit, zpow_sub₀ two_ne_zero]
  exact div_le_div₀ (mul_two_zpow_pos hm e).le hlow hpos hhigh

/-- How a finite datum is divided by another one: its significand is shifted to the left by enough
bits, and the remainder of the division says what is cut off. -/
theorem div_eq {m n : ℕ} (hm : 0 < m) (hn : 0 < n) (e f : ℤ) :
    ∃ (t : ℤ) (a : ℕ),
      t = min (e - f) (max ((m.log2 + e) - (n.log2 + f) - 53) (-1074)) ∧
      a = m * 2 ^ (e - f - t).toNat ∧
      UnpackedFloat.div Format.binary64 (.finite .positive m e hm) (.finite .positive n f hn) =
        roundWithAccuracy Format.binary64 .positive (a / n) t (accuracyOfFraction (a % n) n) := by
  -- The exponent of the quotient is chosen so that no bit of the dividend is lost.
  refine ⟨min (e - f) (Format.binary64.targetExponent (totalExponent m e - totalExponent n f)), _,
    ?_, Nat.shiftLeft_eq _ _, rfl⟩
  simp only [Format.targetExponent, totalExponent, Format.mantissaBits, Format.minExponent]
  push_cast
  congr 2
  omega

/-- The quotient of finite data is computed with enough bits and then rounded, if it is not too
small to be a double. -/
theorem div_finite_denotes {m n : ℕ} (hm : 0 < m) (hn : 0 < n) {e f : ℤ}
    (hlow : 2 ^ (-1074 : ℤ) ≤ (m : ℚ) * 2 ^ e / (n * 2 ^ f)) :
    Denotes .positive (nearestSize (m * 2 ^ e / (n * 2 ^ f)))
      (UnpackedFloat.div Format.binary64 (.finite .positive m e hm)
        (.finite .positive n f hn)) := by
  obtain ⟨t, a, ht, ha, hdiv⟩ := div_eq hm hn e f
  have hlog := le_log_div hm hn e f
  have hvalue : (m : ℚ) * 2 ^ e / (n * 2 ^ f) = a / n * 2 ^ t := by
    have hshift : (a : ℚ) = m * 2 ^ (e - f - t) := by
      rw [ha, Nat.cast_mul, Nat.cast_pow, Nat.cast_ofNat, ← zpow_natCast,
        Int.toNat_of_nonneg (by omega)]
    have hadd : (2 : ℚ) ^ (e - f - t) * 2 ^ t = 2 ^ e / 2 ^ f := by
      rw [← two_zpow_add, sub_add_cancel, zpow_sub₀ two_ne_zero]
    rw [hshift, mul_div_mul_comm, ← hadd]
    ring
  rw [hvalue] at hlow hlog ⊢
  have hquotient : 0 < (a : ℚ) / n * 2 ^ t := (two_zpow_pos _).trans_le hlow
  have henough : 0 < a / n := by
    -- The last bit that is computed does not count for more than the quotient.
    have hunit : (2 : ℚ) ^ t ≤ a / n * 2 ^ t := by
      rcases le_or_gt t (-1074) with hsmall | hlarge
      · exact (two_zpow_le_two_zpow.mpr hsmall).trans hlow
      · exact (Int.zpow_le_iff_le_log one_lt_two hquotient).mpr (by omega)
    have hone : (1 : ℚ) ≤ a / n := le_of_mul_le_mul_right (by rwa [one_mul]) (two_zpow_pos t)
    refine Nat.div_pos ?_ hn
    rw [one_le_div (Nat.cast_pos.mpr hn)] at hone
    exact_mod_cast hone
  rw [hdiv]
  refine roundWithAccuracy_denotes .positive henough (represents_quotient _ hn) ?_
  rw [unitExponent]
  omega

/-- The quotient of finite data that are not negative is rounded once, if it is zero or not too
small. -/
theorem div_denotes {s : Sign} {p q : ℚ} {u v : UnpackedFloat} (hu : Denotes s p u)
    (hs : p = 0 ∨ s = .positive) (hv : Denotes .positive q v) (hq : 0 < q)
    (hlow : p = 0 ∨ 2 ^ (-1074 : ℤ) ≤ p / q) :
    Denotes s (nearestSize (p / q)) (u.div Format.binary64 v) := by
  cases hv with
  | zero => exact absurd hq (lt_irrefl 0)
  | finite hn hd =>
    cases hu with
    | zero =>
      rw [zero_div, nearestSize_zero]
      cases s <;> exact .zero
    | @finite m e hm hc =>
      have hpos : (m : ℚ) * 2 ^ e ≠ 0 := (mul_two_zpow_pos hm e).ne'
      obtain rfl := hs.resolve_left hpos
      exact div_finite_denotes hm hn (hlow.resolve_left hpos)

/-- The quotient of finite doubles, if it is zero, or positive and not too small. -/
theorem holds_div {x y : Float} {p q : ℚ} (hx : value? x = some p) (hy : value? y = some q)
    (hq : 0 < q) (hlow : p = 0 ∨ 2 ^ (-1074 : ℤ) ≤ p / q) :
    Holds (x / y) (nearestSize (p / q)) := by
  have hp : 0 ≤ p := by
    rcases hlow with rfl | hlow
    · exact le_rfl
    · exact ((div_pos_iff_of_pos_right hq).mp ((two_zpow_pos _).trans_le hlow)).le
  obtain ⟨s, hu, hs⟩ := exists_denotes_of_nonneg hx hp
  obtain ⟨t, hv, ht⟩ := exists_denotes_of_nonneg hy hq.le
  obtain rfl := ht.resolve_left hq.ne'
  refine (div_denotes hu hs hv hq hlow).holds_pack ?_
  rcases hs with rfl | rfl
  · exact .inl (by rw [zero_div, nearestSize_zero])
  · exact .inr rfl

/-! ## Reciprocals -/

/-- One, taken apart. -/
theorem unpack_one : (1.0 : Float).toModel.unpack = .finite .positive (2 ^ 52) (-52) (by decide) :=
  rfl

/-- The literal for one is one. -/
theorem value?_one : value? 1.0 = some 1 := by
  rw [value?, unpack_one]
  norm_num [number?, signed]

/-- The literal for zero is zero. -/
theorem value?_zero : value? 0.0 = some 0 := by
  have hzero : (0.0 : Float).toModel.unpack = .zero .positive := rfl
  rw [value?, hzero, number?]

/-- The reciprocal of a double from one on; that of infinity is zero. -/
theorem Holds.value?_one_div {x : Float} {q : ℚ} (h : Holds x q) (hq : 1 ≤ q) :
    value? (1.0 / x) = some (if q < 2 ^ (1024 : ℤ) then nearestSize (1 / q) else 0) := by
  have hpos : 0 < q := zero_lt_one.trans_le hq
  -- A finite divisor leaves a quotient that is not too small; infinity leaves zero.
  split_ifs with hlt
  · have hlow : (2 : ℚ) ^ (-1074 : ℤ) ≤ 1 / q := by
      calc (2 : ℚ) ^ (-1074 : ℤ) ≤ 2 ^ (-1024 : ℤ) := two_zpow_le_two_zpow.mpr (by norm_num)
        _ = 1 / 2 ^ (1024 : ℤ) := by rw [zpow_neg, one_div]
        _ ≤ 1 / q := one_div_le_one_div_of_le hpos hlt.le
    have hle : nearestSize (1 / q) ≤ 1 :=
      isDouble_one.nearestSize_le (by positivity) ((div_le_one hpos).mpr hq)
    have hone : (1 : ℚ) < 2 ^ (1024 : ℤ) := one_lt_zpow₀ one_lt_two (by norm_num)
    exact (holds_div value?_one (h.value?_eq hlt) hpos (.inr hlow)).value?_eq (hle.trans_lt hone)
  · change number? (Float.Model.pack (UnpackedFloat.div _ _ x.toModel.unpack)).unpack = _
    rw [unpack_one, h.unpack_eq (not_lt.mp hlt)]
    exact congrArg number? (unpack_pack_zero .positive)

/-! ## Whole numbers -/

/-- A datum with few bits gets more of them before it is rounded. -/
theorem round_denotes (s : Sign) {m : ℕ} (hm : 0 < m) (e : ℤ) :
    Denotes s (nearestSize (m * 2 ^ e)) (UnpackedFloat.round Format.binary64 s m e) := by
  obtain ⟨t, ht⟩ : ∃ t, Format.binary64.targetExponent (totalExponent m e) = t := ⟨_, rfl⟩
  have hunit : unitExponent (m * 2 ^ e) = t :=
    (unitExponent_eq_targetExponent hm le_rfl (lt_add_one _) e).trans ht
  have hround : UnpackedFloat.round Format.binary64 s m e =
      roundWithAccuracy Format.binary64 s (m * 2 ^ (e - t).toNat) (e - (e - t).toNat) .exact := by
    rw [← Nat.shiftLeft_eq]
    subst ht
    rfl
  have hvalue : (m : ℚ) * 2 ^ e = (m * 2 ^ (e - t).toNat : ℕ) * 2 ^ (e - (e - t).toNat) := by
    rw [zpow_sub₀ two_ne_zero, zpow_natCast]
    push_cast
    field_simp
  rw [hround, hvalue]
  refine roundWithAccuracy_denotes s (Nat.mul_pos hm (Nat.two_pow_pos _)) (represents_exact _) ?_
  rw [← hvalue, hunit]
  omega

/-- The doubles nearest to the words of 64 bits are finite. -/
theorem nearestSize_natCast_le {n : ℕ} (hn : n ≤ 2 ^ 64) : nearestSize n ≤ 2 ^ (64 : ℤ) :=
  (isDouble_two_zpow (by norm_num)).nearestSize_le (Nat.cast_nonneg n) (by exact_mod_cast hn)

/-- Words of 64 bits do not become infinite. -/
theorem nearestSize_natCast_lt {n : ℕ} (hn : n ≤ 2 ^ 64) :
    nearestSize n < 2 ^ (1024 : ℤ) :=
  (nearestSize_natCast_le hn).trans_lt (zpow_lt_zpow_right₀ one_lt_two (by norm_num))

/-- A whole number that is not zero is not rounded below one. -/
theorem one_le_nearestSize_natCast {n : ℕ} (hn : 0 < n) : 1 ≤ nearestSize n :=
  isDouble_one.le_nearestSize (by exact_mod_cast hn)

/-- A word of 64 bits as a double. -/
theorem value?_toFloat (n : UInt64) : value? n.toFloat = some (nearestSize n.toNat) := by
  change number? (Float.Model.pack (UnpackedFloat.normalize _ (n.toNat : ℤ) 0 .positive)).unpack = _
  have hn : n.toNat ≤ 2 ^ 64 := n.toNat_lt.le
  generalize n.toNat = k at hn
  rcases k.eq_zero_or_pos with rfl | hk
  · exact (congrArg number? (unpack_pack_zero .positive)).trans (by simp [number?])
  · have hround : UnpackedFloat.normalize Format.binary64 k 0 .positive =
        UnpackedFloat.round Format.binary64 .positive k 0 := by
      rw [UnpackedFloat.normalize, compare_gt_iff_gt.mpr (by exact_mod_cast hk)]
      rfl
    have hdenotes := round_denotes .positive hk 0
    rw [zpow_zero, mul_one, ← hround] at hdenotes
    exact hdenotes.value?_pack (nearestSize_natCast_lt hn)

/-- A whole number of few bits is converted as a word. -/
theorem ofNat_of_lt {n : ℕ} (hn : n < 2 ^ 53) : Float.ofNat n = n.toUInt64.toFloat * 1.0 := by
  change Float.ofScientific n false 0 = _
  rw [Float.ofScientific, dif_pos ⟨hn, by decide⟩]
  rfl

/-- Any other one gets more bits and is rounded. -/
theorem ofNat_of_le {n : ℕ} (hn : 2 ^ 53 ≤ n) :
    Float.ofNat n = .ofModel (.pack (roundWithAccuracy Format.binary64 .positive
      (n * 2 ^ 53) (-53) .exact)) := by
  have hne : n ≠ 0 := by omega
  change Float.ofScientific n false 0 = _
  rw [Float.ofScientific, dif_neg (by omega)]
  change Float.ofModel (.pack (UnpackedFloat.ofScientific Format.binary64 n 0)) = _
  have hlimit : (0 : ℤ) < 2 ^ Format.binary64.exponentBits := by decide
  rw [UnpackedFloat.ofScientific, dif_neg hne, if_neg (by decide), if_neg (by omega),
    if_pos le_rfl, ← Nat.shiftLeft_eq, ← mul_one (n <<< 53)]
  rfl

/-- A whole number as a double. -/
theorem value?_ofNat {n : ℕ} (hn : n ≤ 2 ^ 64) : value? (Float.ofNat n) = some (nearestSize n) := by
  -- The conversion takes another path for numbers of more than 53 bits, so both are followed.
  rcases lt_or_ge n (2 ^ 53) with hlt | hge
  · have hword : n.toUInt64.toNat = n := UInt64.toNat_ofNat_of_lt' (hlt.trans (by decide))
    have hleft := value?_toFloat n.toUInt64
    rw [hword, (isDouble_natCast hlt.le).nearestSize_eq] at hleft
    have hmul := holds_mul hleft value?_one (Nat.cast_nonneg n) zero_le_one
    rw [mul_one] at hmul
    rw [ofNat_of_lt hlt]
    exact hmul.value?_eq (nearestSize_natCast_lt hn)
  · have hpos : 0 < n := by omega
    have hvalue : ((n * 2 ^ 53 : ℕ) : ℚ) * 2 ^ (-53 : ℤ) = n := by
      rw [Nat.cast_mul, mul_assoc]
      norm_num
    have henough : -53 ≤ unitExponent (((n * 2 ^ 53 : ℕ) : ℚ) * 2 ^ (-53 : ℤ)) := by
      have hlog := log_mul_two_zpow hpos (x := n) le_rfl (lt_add_one _) 0
      rw [zpow_zero, mul_one] at hlog
      rw [hvalue, unitExponent, hlog]
      omega
    have hdenotes := roundWithAccuracy_denotes .positive (Nat.mul_pos hpos (Nat.two_pow_pos 53))
      (represents_exact _) henough
    rw [hvalue] at hdenotes
    rw [ofNat_of_le hge]
    exact hdenotes.value?_pack (nearestSize_natCast_lt hn)

/-- The other sign. -/
theorem value?_neg {x : Float} {q : ℚ} (h : value? x = some q) : value? (-x) = some (-q) := by
  change number? (Float.Model.pack x.toModel.unpack.neg).unpack = _
  rcases unpack_of_value? h with ⟨s, hu, rfl⟩ | ⟨s, m, e, hm, hu, rfl⟩
  · rw [hu, neg_zero]
    exact congrArg number? (unpack_pack_zero (-s))
  · obtain ⟨hc, he⟩ := canonical_of_unpack hu
    rw [hu, UnpackedFloat.neg, unpack_pack_finite hc he, number?]
    -- A sign is flipped twice, or once.
    cases s
    · exact congrArg some (neg_neg _).symm
    · rfl

/-- A whole number with a sign as a double. -/
theorem value?_ofInt {i : ℤ} (hlow : -2 ^ 64 ≤ i) (hhigh : i ≤ 2 ^ 64) :
    value? (Float.ofInt i) = some (nearest i) := by
  cases i with
  | ofNat n =>
    have hn : (n : ℤ) ≤ 2 ^ 64 := hhigh
    rw [Int.ofNat_eq_natCast, Int.cast_natCast, nearest_of_nonneg (Nat.cast_nonneg n)]
    exact value?_ofNat (by exact_mod_cast hn)
  | negSucc n =>
    have hn : n + 1 ≤ 2 ^ 64 := by omega
    rw [Int.cast_negSucc, nearest_neg, nearest_of_nonneg (Nat.cast_nonneg _)]
    exact value?_neg (value?_ofNat hn)

/-- Taking the whole part shifts the other bits out. -/
theorem roundToInt_eq (m : ℕ) (e : ℤ) : roundToInt .positive m e = ⌊(m : ℚ) * 2 ^ e⌋ := by
  have hrepresents := (represents_exact (m * 2 ^ e.toNat)).shiftRight (-(e - e.toNat)).toNat
  have hvalue : ((m * 2 ^ e.toNat : ℕ) : ℚ) / 2 ^ (-(e - e.toNat)).toNat = m * 2 ^ e := by
    push_cast
    rw [← zpow_natCast, ← zpow_natCast, mul_div_assoc, ← zpow_sub₀ two_ne_zero]
    congr 2
    omega
  rw [← hvalue, hrepresents.floor_eq, ← Nat.shiftLeft_eq]
  simp only [roundToInt, decreaseExponent, shiftToExponent, sub_zero, zero_sub]
  rfl

/-- A double as a word of 64 bits. -/
theorem toNat_toUInt64 {x : Float} {q : ℚ} (h : value? x = some q) (hlow : 0 ≤ q)
    (hhigh : q < 2 ^ (64 : ℤ)) : (x.toUInt64.toNat : ℤ) = ⌊q⌋ := by
  have hfloor : ⌊q⌋ < (2 ^ 64 : ℤ) := Int.floor_lt.mpr (by exact_mod_cast hhigh)
  change ((UInt64.ofNatClamp (x.toModel.unpack.toInt 0 (UInt64.size - 1)).toNat).toNat : ℤ) = _
  -- The clamp of the conversion does nothing where the whole part fits the word.
  have hint : x.toModel.unpack.toInt 0 (UInt64.size - 1) = ⌊q⌋ := by
    obtain ⟨s, hu, hs⟩ := exists_denotes_of_nonneg h hlow
    generalize x.toModel.unpack = u at hu
    cases hu with
    | zero => simp [UnpackedFloat.toInt]
    | @finite m e hm hc =>
      obtain rfl := hs.resolve_left (mul_two_zpow_pos hm e).ne'
      exact roundToInt_eq m e
  have hnonneg : 0 ≤ ⌊q⌋ := Int.floor_nonneg.mpr hlow
  rw [hint, UInt64.toNat_ofNatClamp_of_lt (by rw [UInt64.size]; omega)]
  omega

end Klaxon.Double
