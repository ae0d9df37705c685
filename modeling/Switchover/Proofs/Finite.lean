import Mathlib
import Switchover.Proofs.Length

/-!
Finite numbers. A number is infinite only if its exponent leaves the range of exponents, and
rounding raises the leading bit by one place at most. So a number below `2 ^ 1023` is rounded to a
finite one: every natural number of 64 bits is, and every quotient of a finite number and one that
is two at least.
-/
namespace Switchover
open Float.Model Float.Model.UnpackedFloat

/-- Whether packing keeps a number finite. -/
def InRange : UnpackedFloat → Prop
  | .zero _ => True
  | .finite _ _ e _ => e ≤ 971
  | _ => False

/-! ### Packing -/

theorem isFinite_unpack {b : BitVec 64} (h : @unpackExponent Format.binary64 b ≠ -1#11) :
    (UnpackedFloat.unpack Format.binary64 b).isFinite = true := by
  rw [UnpackedFloat.unpack]
  dsimp only
  rw [if_neg h]
  split_ifs <;> rfl

/-- The exponent that stands for infinity is greater than that of any number in range. -/
theorem isFinite_pack {u : UnpackedFloat} (h : InRange u) :
    (UnpackedFloat.unpack Format.binary64 (UnpackedFloat.pack Format.binary64 u)).isFinite =
      true := by
  refine isFinite_unpack ?_
  cases u with
  | notANumber => exact h.elim
  | infinity s => exact h.elim
  | zero s => cases s <;> decide
  | finite s m e hm =>
    have hbias : (Format.binary64.exponentBias : Int) = 1023 := rfl
    have hplaces : (Format.binary64.mantissaBitsWithoutImplicit : Int) = 52 := rfl
    have hones : (-1#11 : BitVec 11).toNat = 2047 := rfl
    simp only [InRange] at h
    rw [UnpackedFloat.pack]
    dsimp only
    rw [if_neg (by rw [hbias, hplaces]; omega)]
    split_ifs <;> rw [unpackExponent_packComponents, ne_eq, ← BitVec.toNat_inj]
    · rw [hones, hbias, hplaces]
      rw [BitVec.toNat_ofNat]
      omega
    · decide

/-! ### Rounding -/

theorem roundedMantissa_le (em : ExtendedMantissa) : em.roundedMantissa ≤ em.mantissa + 1 := by
  have hround := Bool.toNat_le em.roundBit
  have hsticky := Bool.toNat_le em.stickyBit
  rw [roundedMantissa_eq, extent]
  split_ifs <;> omega

theorem lt_two_pow_div (m : Nat) {n : Nat} (hn : n ≠ 0) :
    m / n < 2 ^ (m.log2 - n.log2 + 1) := by
  refine Nat.div_lt_of_lt_mul ?_
  calc m < 2 ^ (m.log2 + 1) := Nat.lt_log2_self
    _ ≤ 2 ^ (n.log2 + (m.log2 - n.log2 + 1)) := Nat.pow_le_pow_right (by decide) (by omega)
    _ = 2 ^ n.log2 * 2 ^ (m.log2 - n.log2 + 1) := Nat.pow_add ..
    _ ≤ n * 2 ^ (m.log2 - n.log2 + 1) := Nat.mul_le_mul_right _ (Nat.log2_self_le hn)

theorem log2_le_of_le {m k : Nat} (h : m ≤ 2 ^ k) : m.log2 ≤ k := by
  have hlog := log2_mono h
  rwa [Nat.log2_two_pow] at hlog

theorem log2_div_le (m : Nat) {n : Nat} (hn : n ≠ 0) : (m / n).log2 ≤ m.log2 - n.log2 := by
  by_cases hzero : m / n = 0
  · rw [hzero, Nat.log2_zero]
    exact Nat.zero_le _
  · exact Nat.lt_succ_iff.mp ((Nat.log2_lt hzero).mpr (lt_two_pow_div m hn))

/-- Shifting and rounding raises the leading bit by one place at most. -/
theorem log2_roundedMantissa_le (em : ExtendedMantissa) (k : Nat) :
    (em >>> k).roundedMantissa.log2 ≤ em.mantissa.log2 - k + 1 := by
  have hround := roundedMantissa_le (em >>> k)
  have hlt := lt_two_pow_div em.mantissa (Nat.two_pow_pos k).ne'
  rw [mantissa_shiftRight] at hround
  rw [Nat.log2_two_pow] at hlt
  exact log2_le_of_le (by omega)

theorem mantissa_ofMantissaAndAccuracy (m : Nat) (accuracy : Accuracy) :
    (ExtendedMantissa.ofMantissaAndAccuracy m accuracy).mantissa = m := by
  rcases accuracy with _ | (_ | _ | _) <;> rfl

/-- A number below `2 ^ 1023` is rounded to one in range, with bits lost before or not. -/
theorem inRange_round (s : Sign) {m : Nat} {e : Int} (accuracy : Accuracy) (he : e ≤ 971)
    (hm : m.log2 + e ≤ 1022) : InRange (roundWithAccuracy Format.binary64 s m e accuracy) := by
  obtain ⟨k, hk⟩ : ∃ k, (max (m.log2 + e - 52) (-1074) - e).toNat = k := ⟨_, rfl⟩
  have hlog := log2_roundedMantissa_le (.ofMantissaAndAccuracy m accuracy) k
  rw [mantissa_ofMantissaAndAccuracy] at hlog
  rw [roundWithAccuracy, shiftToTargetExponent, targetExponent_eq, shiftToExponent, hk]
  dsimp only
  rw [shiftToTargetExponent, targetExponent_eq, shiftToExponent]
  dsimp only
  split_ifs
  · trivial
  · simp only [InRange]
    omega

/-! ### Arithmetic -/

theorem isFinite_neg {x : Float} (hx : x.isFinite = true) : (-x).isFinite = true := by
  refine isFinite_pack (u := x.toModel.unpack.neg) ?_
  rcases unpack_cases hx with ⟨s, hu, -⟩ | ⟨s, m, e, hm, hu, ⟨-, he, -⟩, -⟩ <;> rw [hu]
  · trivial
  · exact he

/-- A natural number of 64 bits is far from infinity. -/
theorem isFinite_toFloat (n : UInt64) : n.toFloat.isFinite = true := by
  refine isFinite_pack (u := UnpackedFloat.ofUInt64 Format.binary64 n) ?_
  have hlog : n.toNat.log2 ≤ 64 := log2_le_of_le n.toNat_lt.le
  change InRange (UnpackedFloat.normalize Format.binary64 n.toNat 0 .positive)
  rcases Nat.eq_zero_or_pos n.toNat with hzero | hpos
  · rw [hzero]
    trivial
  · obtain ⟨j, hj, hnormalize⟩ := normalize_eq hpos 0
    rw [hnormalize]
    refine inRange_round .positive .exact (by omega) ?_
    rw [log2_scaled hpos.ne']
    omega

/-- Dividing a finite number by one that is two at least keeps it finite. -/
theorem isFinite_div {x y : Float} (hx : x.isFinite = true) (hy : IsLength y) (hle : 2 ≤ y) :
    (x / y).isFinite = true := by
  refine isFinite_pack (u := UnpackedFloat.div Format.binary64 x.toModel.unpack y.toModel.unpack) ?_
  have htwo : signedBits (2 : Float).toBits.toNat = 1024 * 2 ^ 52 := by decide
  rw [le_iff_signedBits (by decide) hy.isNaN_eq, htwo] at hle
  obtain ⟨s', -, hzero⟩ | ⟨m', e', hm', hv, hcanonical, hbits⟩ := hy.unpack_eq
  · omega
  simp only [Canonical] at hcanonical
  have hleading : 1 ≤ m'.log2 + e' := by
    have hlog : 52 ≤ m'.log2 := (Nat.le_log2 (by omega)).mpr (by omega)
    omega
  rcases unpack_cases hx with ⟨s, hu, -⟩ | ⟨s, m, e, hm, hu, ⟨hlt, he, -⟩, -⟩ <;> rw [hu, hv]
  · trivial
  · have hlog : m.log2 ≤ 52 := Nat.lt_succ_iff.mp ((Nat.log2_lt (by omega)).mpr hlt)
    have hquotient := log2_div_le (m * 2 ^ (e - e' - min (e - e')
      (max (m.log2 + e - (m'.log2 + e') - 53) (-1074))).toNat) hm'.ne'
    have htotal : totalExponent m e - totalExponent m' e' = m.log2 + e - (m'.log2 + e') := by
      rw [totalExponent, totalExponent]
      ring
    have hbits : (Format.binary64.mantissaBits : Int) = 53 := rfl
    have hleast : Format.binary64.minExponent = -1074 := rfl
    rw [log2_scaled hm.ne'] at hquotient
    rw [UnpackedFloat.div, divCore, htotal, Format.targetExponent, hbits, hleast, Nat.shiftLeft_eq]
    exact inRange_round _ _ (by omega) (by omega)

theorem isInf_pack (s : Sign) {m : Nat} {e : Int} (hm : 0 < m) (he : 971 < e) :
    (UnpackedFloat.unpack Format.binary64
      (UnpackedFloat.pack Format.binary64 (.finite s m e hm))).isInf = true := by
  have hbias : (Format.binary64.exponentBias : Int) = 1023 := rfl
  have hplaces : (Format.binary64.mantissaBitsWithoutImplicit : Int) = 52 := rfl
  rw [UnpackedFloat.pack]
  dsimp only
  rw [if_pos (by rw [hbias, hplaces]; omega)]
  cases s <;> decide

/-- A product of finite numbers is a number, finite or infinite. -/
theorem isFinite_mul {x y : Float} (hx : x.isFinite = true) (hy : y.isFinite = true)
    (hinf : (x * y).isInf = false) : (x * y).isFinite = true := by
  refine isFinite_pack (u := UnpackedFloat.mul Format.binary64 x.toModel.unpack y.toModel.unpack) ?_
  change (UnpackedFloat.unpack Format.binary64 (UnpackedFloat.pack Format.binary64
    (UnpackedFloat.mul Format.binary64 x.toModel.unpack y.toModel.unpack))).isInf = false at hinf
  rcases unpack_cases hx with ⟨s, hu, -⟩ | ⟨s, m, e, hm, hu, -⟩ <;>
    rcases unpack_cases hy with ⟨s', hv, -⟩ | ⟨s', m', e', hm', hv, -⟩ <;> rw [hu, hv] at hinf ⊢
  · trivial
  · trivial
  · trivial
  · rw [UnpackedFloat.mul, roundWithAccuracy] at hinf ⊢
    dsimp only at hinf ⊢
    split_ifs at hinf ⊢ with hzero
    · trivial
    · by_contra hrange
      rw [isInf_pack _ _ (not_le.mp hrange)] at hinf
      cases hinf

end Switchover
