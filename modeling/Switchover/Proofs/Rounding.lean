import Mathlib
import Switchover.Proofs.Time

/-!
Rounding to 53 bits. A positive number is rounded by shifting its mantissa to the right, with two
bits that stand for what was shifted out, and by taking the even one of two neighbours that are
equally near. The bits of the result depend on the number alone, however it is split into a mantissa
and an exponent, and a greater number is never rounded to fewer bits. Numbers are counted in units
of `2 ^ -2148` here, in which the product of any two numbers is whole.
-/
namespace Switchover
open Float.Model Float.Model.UnpackedFloat

/-! ### Mantissas with what was shifted out of them -/

/-- A mantissa and the two bits that stand for what was shifted out of it, as one number. -/
def extent (em : ExtendedMantissa) : Nat :=
  4 * em.mantissa + 2 * em.roundBit.toNat + em.stickyBit.toNat

/-- Shifting halves the mantissa and keeps one bit that tells whether anything is left over. -/
theorem extent_shiftRightOne (em : ExtendedMantissa) :
    extent em.shiftRightOne = 2 * (extent em / 4) + min (extent em % 4) 1 := by
  obtain ⟨m, r, s⟩ := em
  rcases Nat.mod_two_eq_zero_or_one m with hm | hm <;> cases r <;> cases s <;>
    simp [extent, ExtendedMantissa.shiftRightOne, hm] <;> omega

theorem extent_shiftRight_mono {em em' : ExtendedMantissa} (h : extent em ≤ extent em') (k : Nat) :
    extent (em >>> k) ≤ extent (em' >>> k) := by
  induction k with
  | zero => exact h
  | succ k ih =>
    change extent (em >>> k).shiftRightOne ≤ extent (em' >>> k).shiftRightOne
    rw [extent_shiftRightOne, extent_shiftRightOne]
    omega

/-- What is left over is rounded up if it exceeds a half, and to the even neighbour if it is one. -/
theorem roundedMantissa_eq (em : ExtendedMantissa) : em.roundedMantissa =
    (extent em + if extent em / 4 % 2 = 0 then 1 else 2) / 4 := by
  obtain ⟨m, r, s⟩ := em
  rcases Nat.mod_two_eq_zero_or_one m with hm | hm <;> cases r <;> cases s <;>
    simp [extent, ExtendedMantissa.roundedMantissa, ExtendedMantissa.accuracy,
      Accuracy.roundToNearestEven] <;> split_ifs <;> omega

/-- The natural number nearest to `m / 2 ^ k`, of two such numbers the even one. -/
def nearestShift (m k : Nat) : Nat :=
  (ExtendedMantissa.mk m false false >>> k).roundedMantissa

theorem nearestShift_mono {m n : Nat} (h : m ≤ n) (k : Nat) :
    nearestShift m k ≤ nearestShift n k := by
  have hstart : extent ⟨m, false, false⟩ ≤ extent ⟨n, false, false⟩ := by
    simp only [extent, Bool.toNat_false]
    omega
  have hshift := extent_shiftRight_mono hstart k
  rw [nearestShift, nearestShift, roundedMantissa_eq, roundedMantissa_eq]
  split_ifs <;> omega

theorem mantissa_shiftRight (em : ExtendedMantissa) (k : Nat) :
    (em >>> k).mantissa = em.mantissa / 2 ^ k := by
  induction k with
  | zero => exact (Nat.div_one _).symm
  | succ k ih =>
    change (em >>> k).mantissa / 2 = _
    rw [ih, Nat.div_div_eq_div_mul, Nat.pow_succ]

theorem nearestShift_bounds (m k : Nat) :
    m / 2 ^ k ≤ nearestShift m k ∧ nearestShift m k ≤ m / 2 ^ k + 1 := by
  have hm : (ExtendedMantissa.mk m false false >>> k).mantissa = m / 2 ^ k :=
    mantissa_shiftRight _ k
  have hle := Bool.toNat_le (ExtendedMantissa.mk m false false >>> k).roundBit
  have hle' := Bool.toNat_le (ExtendedMantissa.mk m false false >>> k).stickyBit
  rw [nearestShift, roundedMantissa_eq, extent, hm]
  split_ifs <;> omega

theorem shiftRight_add (em : ExtendedMantissa) (i k : Nat) : em >>> (i + k) = (em >>> i) >>> k := by
  induction k with
  | zero => rfl
  | succ k ih => exact congrArg ExtendedMantissa.shiftRightOne ih

theorem shiftRight_scaled (m i : Nat) :
    ExtendedMantissa.mk (m * 2 ^ i) false false >>> i = ⟨m, false, false⟩ := by
  induction i generalizing m with
  | zero => rw [Nat.pow_zero, Nat.mul_one]; rfl
  | succ i ih =>
    have hpow : m * 2 ^ (i + 1) = m * 2 * 2 ^ i := by rw [Nat.pow_succ]; ring
    rw [shiftRight_add, hpow, ih]
    change (ExtendedMantissa.mk (m * 2) false false).shiftRightOne = _
    simp [ExtendedMantissa.shiftRightOne]

/-- Rounding depends on the quotient alone. -/
theorem nearestShift_scaled (m i k : Nat) :
    nearestShift (m * 2 ^ i) (i + k) = nearestShift m k := by
  rw [nearestShift, shiftRight_add, shiftRight_scaled]
  rfl

@[simp] theorem nearestShift_zero_right (m : Nat) : nearestShift m 0 = m := rfl

/-! ### The nearestShift number with 53 bits -/

/-- The number of low bits that a number of 53 bits cannot keep of `n` units of `2 ^ -2148`, the
product of two least numbers. -/
def excessBits (n : Nat) : Nat :=
  max (n.log2 - 52) 1074

/-- The bits of the number nearest to `n` units of `2 ^ -2148`, those of infinity if it is too
great. -/
def nearestBits (n : Nat) : Nat :=
  min (2047 * 2 ^ 52) ((excessBits n - 1074) * 2 ^ 52 + nearestShift n (excessBits n))

theorem log2_mono {m n : Nat} (h : m ≤ n) : m.log2 ≤ n.log2 := by
  rcases Nat.eq_zero_or_pos m with rfl | hm
  · exact Nat.zero_le _
  · exact (Nat.le_log2 (by omega)).mpr ((Nat.log2_self_le (by omega)).trans h)

theorem nearestShift_le (n : Nat) {k : Nat} (hk : n.log2 - 52 ≤ k) : nearestShift n k ≤ 2 ^ 53 := by
  have hlt : n / 2 ^ k < 2 ^ 53 := by
    rw [Nat.div_lt_iff_lt_mul (Nat.two_pow_pos k), ← Nat.pow_add]
    exact Nat.lt_log2_self.trans_le (Nat.pow_le_pow_right (by decide) (by omega))
  exact (nearestShift_bounds n k).2.trans hlt

theorem le_nearestShift {n k : Nat} (hn : n ≠ 0) (hk : n.log2 = 52 + k) :
    2 ^ 52 ≤ nearestShift n k := by
  refine le_trans ?_ (nearestShift_bounds n k).1
  rw [Nat.le_div_iff_mul_le (Nat.two_pow_pos k), ← Nat.pow_add, ← hk]
  exact Nat.log2_self_le hn

/-- With the same bits lost the quotients decide. Otherwise a power of two lies between the two
numbers, which rounding keeps on its side. -/
theorem nearestBits_mono {m n : Nat} (h : m ≤ n) : nearestBits m ≤ nearestBits n := by
  have hlog := log2_mono h
  have hm : excessBits m = max (m.log2 - 52) 1074 := rfl
  have hn : excessBits n = max (n.log2 - 52) 1074 := rfl
  have hexcess : excessBits m ≤ excessBits n := by omega
  refine min_le_min_left _ ?_
  rcases hexcess.eq_or_lt with heq | hlt
  · rw [heq]
    exact Nat.add_le_add_left (nearestShift_mono h _) _
  · have hne : n ≠ 0 := by
      rintro rfl
      rw [Nat.le_zero.mp h] at hlt
      exact hlt.false
    have hle := nearestShift_le m (k := excessBits m) (by omega)
    have hge := le_nearestShift (k := excessBits n) hne (by omega)
    omega

/-! ### Packing -/

theorem toNat_packComponents (s : Sign) (e : BitVec 11) (m : BitVec 52) :
    (packComponents Format.binary64 s e m).toNat =
      s.toBitVec.toNat * 2 ^ 63 + e.toNat * 2 ^ 52 + m.toNat := by
  have he := e.isLt
  have hm := m.isLt
  have hhigh : (s.toBitVec ++ e).toNat = s.toBitVec.toNat * 2 ^ 11 + e.toNat := by
    rw [BitVec.toNat_append, ← Nat.shiftLeft_add_eq_or_of_lt he, Nat.shiftLeft_eq]
  have hall : (s.toBitVec ++ e ++ m).toNat = (s.toBitVec ++ e).toNat * 2 ^ 52 + m.toNat := by
    rw [BitVec.toNat_append, ← Nat.shiftLeft_add_eq_or_of_lt hm, Nat.shiftLeft_eq]
  refine hall.trans ?_
  rw [hhigh]
  ring

/-- A mantissa with an exponent, or zero. -/
def ofMantissa (m : Nat) (e : Int) : UnpackedFloat :=
  if h : m = 0 then .zero .positive else .finite .positive m e (Nat.pos_of_ne_zero h)

/-- The bits of a mantissa with an exponent. An exponent beyond those of all numbers stands for
infinity. -/
theorem toNat_pack {m : Nat} {e : Int} (hlt : m < 2 ^ 53)
    (he : 2 ^ 52 ≤ m ∧ -1074 ≤ e ∨ e = -1074) :
    ((UnpackedFloat.pack Format.binary64 (ofMantissa m e)).toNat : Int) =
      min (2047 * 2 ^ 52) ((e + 1074) * 2 ^ 52 + m) := by
  rcases Nat.eq_zero_or_pos m with rfl | hm
  · obtain rfl : e = -1074 := by omega
    rfl
  rw [ofMantissa, dif_neg hm.ne']
  have hlog : m.log2 + 1 = 53 ↔ 2 ^ 52 ≤ m := by
    rw [← Nat.le_log2 (by omega)]
    have := (Nat.log2_lt (k := 53) (by omega)).mpr hlt
    omega
  have hbias : e + (Format.binary64.exponentBias : Int) + (52 : Nat) = e + 1075 := by
    rw [show (Format.binary64.exponentBias : Int) = 1023 from rfl]
    omega
  change ((if 2 ^ 11 ≤ (e + (Format.binary64.exponentBias : Int) + (52 : Nat)).toNat + 1 then
      packComponents Format.binary64 .positive (-1#11) 0
    else if m.log2 + 1 = 53 then
      packComponents Format.binary64 .positive
        (BitVec.ofNat 11 (e + (Format.binary64.exponentBias : Int) + (52 : Nat)).toNat)
        (BitVec.ofNat 52 m)
    else packComponents Format.binary64 .positive 0#11 (BitVec.ofNat 52 m)).toNat : Int) = _
  rw [hbias]
  simp only [hlog]
  split_ifs with hbig hnormal <;> rw [toNat_packComponents]
  · have hones : (-1#11 : BitVec 11).toNat = 2047 := rfl
    have hzero : (0 : BitVec 52).toNat = 0 := rfl
    rw [hones, hzero]
    simp only [Sign.toBitVec, BitVec.toNat_ofNat]
    omega
  · simp only [Sign.toBitVec, BitVec.toNat_ofNat]
    omega
  · simp only [Sign.toBitVec, BitVec.toNat_ofNat]
    omega

/-! ### Rounding -/

theorem log2_scaled {m : Nat} (hm : m ≠ 0) (i : Nat) : (m * 2 ^ i).log2 = m.log2 + i := by
  induction i with
  | zero => rw [Nat.pow_zero, Nat.mul_one, Nat.add_zero]
  | succ i ih =>
    have hne : m * 2 ^ i ≠ 0 := Nat.mul_ne_zero hm (Nat.two_pow_pos i).ne'
    have hpow : m * 2 ^ (i + 1) = 2 * (m * 2 ^ i) := by rw [Nat.pow_succ]; ring
    rw [hpow, Nat.log2_two_mul hne, ih, Nat.add_assoc]

theorem targetExponent_eq (m : Nat) (e : Int) :
    Format.binary64.targetExponent (totalExponent m e) = max (m.log2 + e - 52) (-1074) := by
  have hbits : (Format.binary64.mantissaBits : Int) = 53 := rfl
  have hleast : Format.binary64.minExponent = -1074 := rfl
  rw [Format.targetExponent, totalExponent, hbits, hleast]
  omega

/-- The least exponent at which the leading bit of `m` fits, with nothing lost. -/
theorem shiftToTargetExponent_eq (m : Nat) (e : Int) {k : Nat}
    (hk : max (m.log2 + e - 52) (-1074) = e + k ∨ max (m.log2 + e - 52) (-1074) < e ∧ k = 0) :
    shiftToTargetExponent Format.binary64 m e .exact =
      (ExtendedMantissa.mk m false false >>> k, e + k) := by
  have hshift : (max (m.log2 + e - 52) (-1074) - e).toNat = k := by omega
  rw [shiftToTargetExponent, targetExponent_eq, shiftToExponent, hshift]
  rfl

/-- The bits of what a positive number is rounded to. A mantissa that rounding carries to `2 ^ 53`
is halved, which the bits do not show: they count on into the next exponent. -/
theorem toNat_pack_round {m k : Nat} {e : Int} (hm : m ≠ 0)
    (hk : max (m.log2 + e - 52) (-1074) = e + k) :
    ((UnpackedFloat.pack Format.binary64
      (roundWithAccuracy Format.binary64 .positive m e .exact)).toNat : Int) =
      min (2047 * 2 ^ 52) ((e + k + 1074) * 2 ^ 52 + nearestShift m k) := by
  have hle := nearestShift_le m (k := k) (by omega)
  have hge : e + k ≠ -1074 → 2 ^ 52 ≤ nearestShift m k := fun h => le_nearestShift hm (by omega)
  have hround : ∀ second : ExtendedMantissa × Int,
      shiftToTargetExponent Format.binary64 (nearestShift m k) (e + k) .exact = second →
      roundWithAccuracy Format.binary64 .positive m e .exact =
        ofMantissa second.1.mantissa second.2 := by
    rintro _ rfl
    rw [roundWithAccuracy, shiftToTargetExponent_eq m e (.inl hk)]
    rfl
  rcases hle.lt_or_eq with hlt | heq
  · have hlog : (nearestShift m k).log2 ≤ 52 := by
      rcases Nat.eq_zero_or_pos (nearestShift m k) with hzero | hpos
      · rw [hzero]; exact Nat.zero_le _
      · exact Nat.lt_succ_iff.mp ((Nat.log2_lt hpos.ne').mpr hlt)
    rw [hround _ (shiftToTargetExponent_eq (nearestShift m k) (e + k) (k := 0) (by omega)),
      mantissa_shiftRight, Nat.pow_zero, Nat.div_one]
    exact (toNat_pack hlt (by omega)).trans (by omega)
  · have hlog : (2 ^ 53).log2 = 53 := Nat.log2_two_pow
    have hhalf : (ExtendedMantissa.mk (2 ^ 53) false false >>> 1).mantissa = 2 ^ 52 := rfl
    rw [heq] at hround ⊢
    rw [hround _ (shiftToTargetExponent_eq (2 ^ 53) (e + k) (k := 1) (.inl (by omega))), hhalf]
    exact (toNat_pack (by decide) (by omega)).trans (by omega)

/-- Rounding `m` times a power of two, counted in units of `2 ^ -2148`. -/
theorem signedBits_pack_round {m : Nat} {e : Int} (hm : m ≠ 0) (he : -2148 ≤ e)
    (hle : e ≤ max (m.log2 + e - 52) (-1074)) :
    signedBits (UnpackedFloat.pack Format.binary64
      (roundWithAccuracy Format.binary64 .positive m e .exact)).toNat =
      nearestBits (m * 2 ^ (e + 2148).toNat) := by
  obtain ⟨k, hk⟩ := Int.le.dest hle
  obtain ⟨i, hi⟩ := Int.le.dest he
  have hlog := log2_scaled hm i
  have hexcess : excessBits (m * 2 ^ i) = i + k := by
    rw [excessBits, hlog]
    omega
  have hplace : e + k + 1074 = (i + k - 1074 : Nat) := by omega
  have hbits := toNat_pack_round hm hk.symm
  rw [show (e + 2148).toNat = i by omega, nearestBits, hexcess, nearestShift_scaled]
  rw [hplace] at hbits
  rw [signedBits, if_pos (by omega), hbits]
  push_cast
  rfl

end Switchover
