import Mathlib
import Switchover.Proofs.Rounding

/-!
Lengths of time, the numbers that are finite and not negative. Their products and the whole numbers
among them are rounded once, so both grow with what they are made of. A product can be infinite, but
it is always a number.
-/
namespace Switchover
open Float.Model Float.Model.UnpackedFloat

/-! ### Lengths of time -/

/-- Whether a time is a length of time: finite and not negative. -/
def IsLength (x : Float) : Prop :=
  x.isFinite = true ∧ ¬ x < 0

/-- A length of time in units of the least one, `2 ^ -1074`. -/
def units (x : Float) : Nat :=
  match x.toModel.unpack with
  | .finite _ m e _ => m * 2 ^ (e + 1074).toNat
  | _ => 0

/-- The bits of infinity are the greatest ones of a number. -/
theorem isNaN_of_signedBits {x : Float} (h : 0 ≤ signedBits x.toBits.toNat)
    (hle : signedBits x.toBits.toNat ≤ 2047 * 2 ^ 52) : x.isNaN = false := by
  have hE := toNat_unpackExponent x.toBits.toBitVec
  have hM := toNat_unpackMantissa x.toBits.toBitVec
  have hones : (-1#11 : BitVec 11).toNat = 2047 := rfl
  have hlt := x.toBits.toNat_lt
  rw [signedBits] at h hle
  change (UnpackedFloat.unpack Format.binary64 x.toBits.toBitVec).isNaN = false
  simp only [UnpackedFloat.unpack]
  split_ifs with hinf hm <;> try rfl
  rw [← BitVec.toNat_inj, hE, hones, UInt64.toNat_toBitVec] at hinf
  rw [← BitVec.toNat_inj, hM, BitVec.toNat_ofNat, Nat.zero_mod, UInt64.toNat_toBitVec] at hm
  split_ifs at h hle <;> omega

theorem isLength_of_signedBits {x : Float} (h : 0 ≤ signedBits x.toBits.toNat)
    (hlt : signedBits x.toBits.toNat < 2047 * 2 ^ 52) : IsLength x := by
  refine ⟨?_, fun hneg => ?_⟩
  · have hE := toNat_unpackExponent x.toBits.toBitVec
    have hones : (-1#11 : BitVec 11).toNat = 2047 := rfl
    have hbits := x.toBits.toNat_lt
    rw [signedBits] at h hlt
    change (UnpackedFloat.unpack Format.binary64 x.toBits.toBitVec).isFinite = true
    simp only [UnpackedFloat.unpack]
    split_ifs with hinf <;> try rfl
    all_goals
      rw [← BitVec.toNat_inj, hE, hones, UInt64.toNat_toBitVec] at hinf
      split_ifs at h hlt <;> omega
  · rw [lt_zero_iff (isNaN_of_signedBits h hlt.le)] at hneg
    omega

section Finite
variable {x : Float} (h : x.isFinite = true)
include h

theorem isNaN_of_isFinite : x.isNaN = false := by
  have hfinite : x.toModel.unpack.isFinite = true := h
  change x.toModel.unpack.isNaN = false
  cases hx : x.toModel.unpack with
  | notANumber => rw [hx] at hfinite; cases hfinite
  | _ => rfl

/-- A finite number is zero, of either sign, or it has a mantissa and an exponent. -/
theorem unpack_cases :
    (∃ s, x.toModel.unpack = .zero s ∧ signedBits x.toBits.toNat = 0) ∨
      ∃ s m e hm, x.toModel.unpack = .finite s m e hm ∧ Canonical (.finite s m e hm) ∧
        signedBits x.toBits.toNat = s.apply ((e + 1074) * 2 ^ 52 + m) := by
  have hfinite : x.toModel.unpack.isFinite = true := h
  obtain ⟨hcanonical, hgauge⟩ := gauge_unpack _ (unpack_ne (isNaN_of_isFinite h))
  rw [UInt64.toNat_toBitVec] at hgauge
  change Canonical x.toModel.unpack at hcanonical
  change gauge x.toModel.unpack = _ at hgauge
  cases hx : x.toModel.unpack with
  | notANumber => rw [hx] at hfinite; cases hfinite
  | infinity s => rw [hx] at hfinite; cases hfinite
  | zero s =>
    rw [hx] at hgauge
    exact .inl ⟨s, rfl, hgauge.symm⟩
  | finite s m e hm =>
    rw [hx] at hcanonical hgauge
    exact .inr ⟨s, m, e, hm, rfl, hcanonical, hgauge.symm⟩

end Finite

namespace IsLength
variable {x : Float} (h : IsLength x)
include h

theorem isNaN_eq : x.isNaN = false :=
  isNaN_of_isFinite h.1

theorem signedBits_nonneg : 0 ≤ signedBits x.toBits.toNat :=
  not_lt.mp (mt (lt_zero_iff h.isNaN_eq).mpr h.2)

/-- A length of time is zero, of either sign, or a positive number. -/
theorem unpack_eq :
    (∃ s, x.toModel.unpack = .zero s ∧ signedBits x.toBits.toNat = 0) ∨
      ∃ m e hm, x.toModel.unpack = .finite .positive m e hm ∧
        Canonical (.finite .positive m e hm) ∧
        signedBits x.toBits.toNat = (e + 1074) * 2 ^ 52 + m := by
  refine (unpack_cases h.1).imp_right ?_
  rintro ⟨s, m, e, hm, hx, hcanonical, hbits⟩
  have hnonneg := h.signedBits_nonneg
  cases s with
  | negative =>
    rw [hbits] at hnonneg
    simp only [Sign.apply, Canonical] at hnonneg hcanonical
    omega
  | positive => exact ⟨m, e, hm, hx, hcanonical, hbits⟩

/-- Only zero is no longer than zero. -/
theorem bne_zero_of_le {y : Float} (hle : x ≤ y) (hx : (x != 0) = true) : (y != 0) = true := by
  obtain ⟨hnx, hny⟩ := isNaN_of_le hle
  have hnonneg := h.signedBits_nonneg
  rw [le_iff_signedBits hnx hny] at hle
  rw [bne_zero_iff hnx] at hx
  rw [bne_zero_iff hny]
  omega

end IsLength

/-- Between numbers of different exponents lies a power of two. -/
theorem scaled_le {s s' : Sign} {m m' : Nat} {e e' : Int} {hm : 0 < m} {hm' : 0 < m'}
    (h : Canonical (.finite s m e hm)) (h' : Canonical (.finite s' m' e' hm'))
    (hle : (e + 1074) * 2 ^ 52 + (m : Int) ≤ (e' + 1074) * 2 ^ 52 + (m' : Int)) :
    m * 2 ^ (e + 1074).toNat ≤ m' * 2 ^ (e' + 1074).toNat := by
  simp only [Canonical] at h h'
  rcases lt_trichotomy e e' with he | rfl | he
  · calc m * 2 ^ (e + 1074).toNat
        ≤ m' * 2 * 2 ^ (e + 1074).toNat := Nat.mul_le_mul_right _ (by omega)
      _ = m' * 2 ^ ((e + 1074).toNat + 1) := by rw [Nat.pow_succ]; ring
      _ ≤ m' * 2 ^ (e' + 1074).toNat :=
        Nat.mul_le_mul_left _ (Nat.pow_le_pow_right (by decide) (by omega))
  · exact Nat.mul_le_mul_right _ (by omega)
  · omega

theorem units_mono {x y : Float} (hx : IsLength x) (hy : IsLength y) (h : x ≤ y) :
    units x ≤ units y := by
  obtain ⟨hnx, hny⟩ := isNaN_of_le h
  rw [le_iff_signedBits hnx hny] at h
  rcases hx.unpack_eq with ⟨s, hux, -⟩ | ⟨m, e, hm, hux, hcx, hbx⟩
  · rw [units, hux]
    exact Nat.zero_le _
  rcases hy.unpack_eq with ⟨s, -, hby⟩ | ⟨m', e', hm', huy, hcy, hby⟩
  · rw [hbx, hby] at h
    simp only [Canonical] at hcx
    omega
  · rw [units, units, hux, huy]
    exact scaled_le hcx hcy (by rw [← hbx, ← hby]; exact h)

/-! ### Products -/

theorem nearestBits_zero : nearestBits 0 = 0 := by
  have hexcess : excessBits 0 = 1074 := by
    rw [excessBits, Nat.log2_zero]
    decide
  have hnearest : nearestShift 0 1074 = 0 := by
    have h := nearestShift_scaled 0 1074 0
    rwa [Nat.zero_mul, nearestShift_zero_right] at h
  rw [nearestBits, hexcess, hnearest]
  decide

theorem signedBits_zero (s : Sign) :
    signedBits (UnpackedFloat.pack Format.binary64 (.zero s)).toNat = 0 := by
  cases s <;> rfl

/-- The product of two numbers loses no bit that it could keep. -/
theorem le_targetExponent_mul {m m' : Nat} {e e' : Int} {hm : 0 < m} {hm' : 0 < m'}
    (h : Canonical (.finite .positive m e hm)) (h' : Canonical (.finite .positive m' e' hm')) :
    e + e' ≤ max ((m * m').log2 + (e + e') - 52) (-1074) := by
  simp only [Canonical] at h h'
  have hlog : 2 ^ 52 ≤ m ∨ 2 ^ 52 ≤ m' → 52 ≤ (m * m').log2 := by
    intro hbig
    rw [Nat.le_log2 (Nat.mul_pos hm hm').ne']
    rcases hbig with hbig | hbig
    · exact hbig.trans (Nat.le_mul_of_pos_right m hm')
    · exact hbig.trans (Nat.le_mul_of_pos_left m' hm)
  omega

/-- The bits of a product are those of the number nearest to it. -/
theorem signedBits_mul {x y : Float} (hx : IsLength x) (hy : IsLength y) :
    signedBits (x * y).toBits.toNat = nearestBits (units x * units y) := by
  have hbits : (x * y).toBits.toBitVec = UnpackedFloat.pack Format.binary64
    (UnpackedFloat.mul Format.binary64 x.toModel.unpack y.toModel.unpack) := rfl
  have hzero : ∀ s, UnpackedFloat.mul Format.binary64 x.toModel.unpack y.toModel.unpack = .zero s →
      units x * units y = 0 →
        signedBits (x * y).toBits.toNat = nearestBits (units x * units y) := by
    intro s hmul hunits
    rw [← UInt64.toNat_toBitVec, hbits, hmul, hunits, nearestBits_zero]
    exact signedBits_zero s
  rcases hx.unpack_eq with ⟨s, hux, -⟩ | ⟨m, e, hm, hux, hcx, -⟩ <;>
    rcases hy.unpack_eq with ⟨s', huy, -⟩ | ⟨m', e', hm', huy, hcy, -⟩
  · exact hzero (s * s') (by rw [hux, huy]; rfl) (by rw [units, hux, Nat.zero_mul])
  · exact hzero (s * .positive) (by rw [hux, huy]; rfl) (by rw [units, hux, Nat.zero_mul])
  · exact hzero (.positive * s') (by rw [hux, huy]; rfl)
      (by rw [units.eq_def y, huy, Nat.mul_zero])
  · have hround := signedBits_pack_round (Nat.mul_pos hm hm').ne'
      (by simp only [Canonical] at hcx hcy; omega) (le_targetExponent_mul hcx hcy)
    have hunits : units x * units y = m * m' * 2 ^ (e + e' + 2148).toNat := by
      have hexp : (e + e' + 2148).toNat = (e + 1074).toNat + (e' + 1074).toNat := by
        simp only [Canonical] at hcx hcy
        omega
      rw [units, units, hux, huy, hexp, Nat.pow_add]
      ring
    have hmul : UnpackedFloat.mul Format.binary64 x.toModel.unpack y.toModel.unpack =
        roundWithAccuracy Format.binary64 .positive (m * m') (e + e') .exact := by
      rw [hux, huy]
      rfl
    rw [← UInt64.toNat_toBitVec, hbits, hmul, hunits]
    exact hround

/-- Times whose bits are those nearest to two numbers are in the order of these numbers. -/
theorem le_of_nearestBits {x y : Float} {m n : Nat}
    (hx : signedBits x.toBits.toNat = nearestBits m)
    (hy : signedBits y.toBits.toNat = nearestBits n) (h : m ≤ n) : x ≤ y := by
  have hmax : ∀ n, nearestBits n ≤ 2047 * 2 ^ 52 := fun n => min_le_left _ _
  have hm := hmax m
  have hn := hmax n
  have hle := nearestBits_mono h
  rw [le_iff_signedBits (isNaN_of_signedBits (by omega) (by omega))
    (isNaN_of_signedBits (by omega) (by omega)), hx, hy]
  exact_mod_cast hle

/-- A greater length taken a greater number of times is no shorter. -/
theorem length_mul_mono {x x' y y' : Float} (hx : IsLength x) (hx' : IsLength x')
    (hy : IsLength y) (hy' : IsLength y') (hxx : x ≤ x') (hyy : y ≤ y') : x * y ≤ x' * y' :=
  le_of_nearestBits (signedBits_mul hx hy) (signedBits_mul hx' hy')
    (Nat.mul_le_mul (units_mono hx hx' hxx) (units_mono hy hy' hyy))

/-! ### Whole numbers -/

/-- A mantissa is first shifted to where its leading bit belongs. -/
theorem normalize_eq {n : Nat} (hn : 0 < n) (e : Int) :
    ∃ j : Nat, (e - max (n.log2 + e - 52) (-1074)).toNat = j ∧
      UnpackedFloat.normalize Format.binary64 n e .positive =
        roundWithAccuracy Format.binary64 .positive (n * 2 ^ j) (e - j) .exact := by
  refine ⟨_, rfl, ?_⟩
  rw [UnpackedFloat.normalize, Int.compare_eq_gt.mpr (by omega)]
  change UnpackedFloat.round Format.binary64 .positive n e = _
  rw [UnpackedFloat.round, targetExponent_eq, decreaseExponent, Nat.shiftLeft_eq]

/-- The bits of a mantissa and an exponent are those of the number nearest to the two together,
wherever the leading bit of the mantissa is. -/
theorem signedBits_pack_normalize (n : Nat) {e : Int} (he : -2148 ≤ e) :
    signedBits (UnpackedFloat.pack Format.binary64
      (UnpackedFloat.normalize Format.binary64 n e .positive)).toNat =
      nearestBits (n * 2 ^ (e + 2148).toNat) := by
  rcases Nat.eq_zero_or_pos n with rfl | hpos
  · rw [Nat.zero_mul, nearestBits_zero]
    exact signedBits_zero .positive
  obtain ⟨j, hj, hnormalize⟩ := normalize_eq hpos e
  have hround := signedBits_pack_round (m := n * 2 ^ j) (e := e - j)
    (Nat.mul_pos hpos (Nat.two_pow_pos j)).ne' (by omega)
    (by rw [log2_scaled hpos.ne']; omega)
  have hunits : n * 2 ^ j * 2 ^ (e - j + 2148).toNat = n * 2 ^ (e + 2148).toNat := by
    rw [Nat.mul_assoc, ← Nat.pow_add]
    congr 2
    omega
  rw [hnormalize, hround, hunits]

theorem signedBits_toFloat (n : UInt32) :
    signedBits n.toFloat.toBits.toNat = nearestBits (n.toNat * 2 ^ 2148) := by
  have hbits : n.toFloat.toBits.toBitVec = UnpackedFloat.pack Format.binary64
    (UnpackedFloat.normalize Format.binary64 n.toNat 0 .positive) := rfl
  have hplaces : ((0 : Int) + 2148).toNat = 2148 := rfl
  rw [← UInt64.toNat_toBitVec, hbits, signedBits_pack_normalize n.toNat (by omega), hplaces]

/-- All whole numbers that 32 bits hold are far from infinity. -/
theorem isLength_toFloat (n : UInt32) : IsLength n.toFloat := by
  have hbits := signedBits_toFloat n
  have hmost := signedBits_toFloat 4294967295
  have hlt : signedBits (4294967295 : UInt32).toFloat.toBits.toNat < 2047 * 2 ^ 52 := by decide
  have hle : n.toNat ≤ (4294967295 : UInt32).toNat := Nat.le_of_lt_succ n.toNat_lt
  have hmono := nearestBits_mono (Nat.mul_le_mul_right (2 ^ 2148) hle)
  exact isLength_of_signedBits (by omega) (by omega)

theorem toFloat_mono {m n : UInt32} (h : m ≤ n) : m.toFloat ≤ n.toFloat :=
  le_of_nearestBits (signedBits_toFloat m) (signedBits_toFloat n)
    (Nat.mul_le_mul_right _ (UInt32.le_iff_toNat_le.mp h))

end Switchover
