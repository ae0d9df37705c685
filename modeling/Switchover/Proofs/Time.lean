import Mathlib
import Switchover.Delivery.Bridge

/-!
The order of times. A binary64 number is a sign and a magnitude, and the bits of the magnitude read
as a natural number grow with it. So comparing two numbers by value is comparing two integers, and
where neither is `-0` or no number at all, it is comparing their places in the total order by which
windows are sorted.
-/
namespace Switchover
open Float.Model Float.Model.UnpackedFloat

/-! ### Unpacked numbers as integers -/

/-- Exponent and mantissa of a number as one integer: the bits of its magnitude, with its sign. -/
def gauge : UnpackedFloat → Int
  | .finite s m e _ => s.apply ((e + 1074) * 2 ^ 52 + m)
  | .infinity s => s.apply (2047 * 2 ^ 52)
  | _ => 0

/-- A number whose mantissa has as many bits as its exponent allows. -/
def Canonical : UnpackedFloat → Prop
  | .finite _ m e _ => m < 2 ^ 53 ∧ e ≤ 971 ∧ (2 ^ 52 ≤ m ∧ -1074 ≤ e ∨ e = -1074)
  | .notANumber => False
  | _ => True

theorem compare_neg_neg (a b : Int) : compare (-a) (-b) = (compare a b).swap := by
  rcases lt_trichotomy a b with h | rfl | h
  · rw [compare_lt_iff_lt.mpr h, compare_gt_iff_gt.mpr (by omega)]; rfl
  · rw [compare_eq_iff_eq.mpr rfl, compare_eq_iff_eq.mpr rfl]; rfl
  · rw [compare_gt_iff_gt.mpr h, compare_lt_iff_lt.mpr (by omega)]; rfl

/-- A greater exponent outweighs the mantissa: only the least one has mantissas below `2 ^ 52`. -/
theorem compare_lex {m m' : Nat} {e e' : Int} (hm : m < 2 ^ 53) (hm' : m' < 2 ^ 53)
    (h : 2 ^ 52 ≤ m ∧ -1074 ≤ e ∨ e = -1074) (h' : 2 ^ 52 ≤ m' ∧ -1074 ≤ e' ∨ e' = -1074) :
    (compare e e').then (compare m m') =
      compare ((e + 1074) * 2 ^ 52 + (m : Int)) ((e' + 1074) * 2 ^ 52 + (m' : Int)) := by
  rcases lt_trichotomy e e' with he | rfl | he
  · have hg : (e + 1074) * 2 ^ 52 + (m : Int) < (e' + 1074) * 2 ^ 52 + (m' : Int) := by omega
    rw [compare_lt_iff_lt.mpr he, compare_lt_iff_lt.mpr hg]; rfl
  · have hg : compare m m' =
        compare ((e + 1074) * 2 ^ 52 + (m : Int)) ((e + 1074) * 2 ^ 52 + (m' : Int)) := by
      rcases lt_trichotomy m m' with hm | rfl | hm
      · rw [compare_lt_iff_lt.mpr hm, eq_comm, compare_lt_iff_lt]; omega
      · rw [compare_eq_iff_eq.mpr rfl, compare_eq_iff_eq.mpr rfl]
      · rw [compare_gt_iff_gt.mpr hm, eq_comm, compare_gt_iff_gt]; omega
    rw [← hg, compare_eq_iff_eq.mpr rfl]; rfl
  · have hg : (e + 1074) * 2 ^ 52 + (m : Int) > (e' + 1074) * 2 ^ 52 + (m' : Int) := by omega
    rw [compare_gt_iff_gt.mpr he, compare_gt_iff_gt.mpr hg]; rfl

theorem compare_gauge {u v : UnpackedFloat} (hu : Canonical u) (hv : Canonical v) :
    u.compare v = some (compare (gauge u) (gauge v)) := by
  rcases u with (_ | _) | _ | _ | ⟨_ | _, m, e, hm⟩ <;>
  rcases v with (_ | _) | _ | _ | ⟨_ | _, m', e', hm'⟩ <;>
  simp only [Canonical] at hu hv <;>
  simp only [UnpackedFloat.compare, gauge, Sign.apply, Option.some.injEq]
  -- two finite numbers of one sign compare by exponent and mantissa, all others by kind
  all_goals first
    | rfl
    | rw [compare_lex hu.1 hv.1 hu.2.2 hv.2.2, compare_neg_neg]
    | rw [compare_lex hu.1 hv.1 hu.2.2 hv.2.2]
    | rw [eq_comm, compare_lt_iff_lt]; omega
    | rw [eq_comm, compare_gt_iff_gt]; omega

/-! ### The bits of a number -/

/-- The integer that 64 bits hold as sign and magnitude. -/
def signedBits (n : Nat) : Int :=
  if n < 2 ^ 63 then n else 2 ^ 63 - n

theorem toNat_unpackExponent (b : BitVec 64) :
    (@unpackExponent Format.binary64 b).toNat = b.toNat / 2 ^ 52 % 2 ^ 11 := by
  simp [unpackExponent, Nat.shiftRight_eq_div_pow]

theorem toNat_unpackMantissa (b : BitVec 64) :
    (@unpackMantissa Format.binary64 b).toNat = b.toNat % 2 ^ 52 := by
  simp [unpackMantissa]

theorem apply_unpackSign (b : BitVec 64) {g : Int} (hg : g = b.toNat % 2 ^ 63) :
    (Sign.ofBitVec (@unpackSign Format.binary64 b)).apply g = signedBits b.toNat := by
  have hb : b.toNat < 2 ^ 64 := b.isLt
  have hS : (@unpackSign Format.binary64 b).toNat = b.toNat / 2 ^ 63 % 2 := by
    simp [unpackSign, Nat.shiftRight_eq_div_pow]
  have hs : @unpackSign Format.binary64 b = 0#1 ↔ b.toNat < 2 ^ 63 := by
    rw [← BitVec.toNat_inj, hS, BitVec.toNat_ofNat]
    omega
  by_cases hn : b.toNat < 2 ^ 63
  · rw [Sign.ofBitVec, if_pos (hs.mpr hn), signedBits, if_pos hn, Sign.apply]
    omega
  · rw [Sign.ofBitVec, if_neg (mt hs.mp hn), signedBits, if_neg hn, Sign.apply]
    omega

/-- What 64 bits unpack to is canonical, and its sign and magnitude are those of the bits. -/
theorem gauge_unpack (b : BitVec 64) (h : UnpackedFloat.unpack Format.binary64 b ≠ .notANumber) :
    Canonical (UnpackedFloat.unpack Format.binary64 b) ∧
      gauge (UnpackedFloat.unpack Format.binary64 b) = signedBits b.toNat := by
  have hE := toNat_unpackExponent b
  have hM := toNat_unpackMantissa b
  have hbias : (Format.binary64.exponentBias : Int) = 1023 := rfl
  have hones : (-1#11 : BitVec 11).toNat = 2047 := rfl
  have hone : (1#1 ++ @unpackMantissa Format.binary64 b).toNat =
      2 ^ 52 + b.toNat % 2 ^ 52 := by
    rw [BitVec.toNat_append, hM, ← Nat.shiftLeft_add_eq_or_of_lt (Nat.mod_lt _ (by decide))]
    rfl
  revert h
  simp only [UnpackedFloat.unpack, hbias]
  split_ifs with hinf hm hsub hz <;> intro h
  · -- infinity
    rw [← BitVec.toNat_inj, hE, hones] at hinf
    rw [← BitVec.toNat_inj, hM, BitVec.toNat_ofNat, Nat.zero_mod] at hm
    exact ⟨trivial, apply_unpackSign b (by omega)⟩
  · -- no number
    exact absurd rfl h
  · -- zero
    rw [← BitVec.toNat_inj, hE, BitVec.toNat_ofNat, Nat.zero_mod] at hsub
    rw [← BitVec.toNat_inj, hM, BitVec.toNat_ofNat, Nat.zero_mod] at hz
    rw [← apply_unpackSign b (g := 0) (by omega)]
    exact ⟨trivial, by cases Sign.ofBitVec (@unpackSign Format.binary64 b) <;> rfl⟩
  · -- the least exponent: no leading bit
    rw [← BitVec.toNat_inj, hE, BitVec.toNat_ofNat, Nat.zero_mod] at hsub
    simp only [Canonical, gauge, hM, hE]
    exact ⟨by omega, apply_unpackSign b (by omega)⟩
  · -- any other exponent: a leading bit that is not stored
    rw [← BitVec.toNat_inj, hE, hones] at hinf
    rw [← BitVec.toNat_inj, hE, BitVec.toNat_ofNat, Nat.zero_mod] at hsub
    simp only [Canonical, gauge, hone, hE]
    exact ⟨by omega, apply_unpackSign b (by omega)⟩

/-! ### Comparing times -/

theorem unpack_ne {x : Float} (hx : x.isNaN = false) :
    UnpackedFloat.unpack Format.binary64 x.toBits.toBitVec ≠ .notANumber := by
  intro hu
  have hnan : x.isNaN = (UnpackedFloat.unpack Format.binary64 x.toBits.toBitVec).isNaN := rfl
  rw [hu, hx] at hnan
  exact absurd hnan (by decide)

theorem compare_signedBits {x y : Float} (hx : x.isNaN = false) (hy : y.isNaN = false) :
    x.toModel.compare y.toModel =
      some (compare (signedBits x.toBits.toNat) (signedBits y.toBits.toNat)) := by
  obtain ⟨hcx, hgx⟩ := gauge_unpack x.toBits.toBitVec (unpack_ne hx)
  obtain ⟨hcy, hgy⟩ := gauge_unpack y.toBits.toBitVec (unpack_ne hy)
  rw [← UInt64.toNat_toBitVec, ← UInt64.toNat_toBitVec, ← hgx, ← hgy]
  exact compare_gauge hcx hcy

theorem le_iff_signedBits {x y : Float} (hx : x.isNaN = false) (hy : y.isNaN = false) :
    x ≤ y ↔ signedBits x.toBits.toNat ≤ signedBits y.toBits.toNat := by
  change decide ((x.toModel.compare y.toModel).any (·.isLE) = true) = true ↔ _
  rw [compare_signedBits hx hy, Option.any_some, decide_eq_true_iff, Int.isLE_compare]

theorem lt_iff_signedBits {x y : Float} (hx : x.isNaN = false) (hy : y.isNaN = false) :
    x < y ↔ signedBits x.toBits.toNat < signedBits y.toBits.toNat := by
  change decide ((x.toModel.compare y.toModel == some .lt) = true) = true ↔ _
  rw [compare_signedBits hx hy, decide_eq_true_iff, beq_iff_eq, Option.some.injEq,
    compare_lt_iff_lt]

theorem beq_iff_signedBits {x y : Float} (hx : x.isNaN = false) (hy : y.isNaN = false) :
    (x == y) = true ↔ signedBits x.toBits.toNat = signedBits y.toBits.toNat := by
  change (x.toModel.compare y.toModel == some .eq) = true ↔ _
  rw [compare_signedBits hx hy, beq_iff_eq, Option.some.injEq, compare_eq_iff_eq]

theorem isNaN_zero : (0 : Float).isNaN = false := by decide

theorem signedBits_toBits_zero : signedBits (0 : Float).toBits.toNat = 0 := by decide

theorem lt_zero_iff {x : Float} (hx : x.isNaN = false) :
    x < 0 ↔ signedBits x.toBits.toNat < 0 := by
  rw [lt_iff_signedBits hx isNaN_zero, signedBits_toBits_zero]

theorem bne_zero_iff {x : Float} (hx : x.isNaN = false) :
    (x != 0) = true ↔ signedBits x.toBits.toNat ≠ 0 := by
  rw [bne, Bool.not_eq_true', Bool.eq_false_iff, ne_eq, beq_iff_signedBits hx isNaN_zero,
    signedBits_toBits_zero]

/-- Only numbers are compared. -/
theorem isNaN_of_compare {x y : Float} {o : Ordering} (h : x.toModel.compare y.toModel = some o) :
    x.isNaN = false ∧ y.isNaN = false := by
  change x.toModel.unpack.compare y.toModel.unpack = some o at h
  change x.toModel.unpack.isNaN = false ∧ y.toModel.unpack.isNaN = false
  cases hx : x.toModel.unpack <;> cases hy : y.toModel.unpack <;> rw [hx, hy] at h
  all_goals first
    | exact ⟨rfl, rfl⟩
    | cases h

theorem isNaN_of_le {x y : Float} (h : x ≤ y) : x.isNaN = false ∧ y.isNaN = false := by
  change decide ((x.toModel.compare y.toModel).any (·.isLE) = true) = true at h
  cases ho : x.toModel.compare y.toModel with
  | none => rw [ho] at h; cases h
  | some o => exact isNaN_of_compare ho

theorem isNaN_of_lt {x y : Float} (h : x < y) : x.isNaN = false ∧ y.isNaN = false := by
  change decide ((x.toModel.compare y.toModel == some .lt) = true) = true at h
  exact isNaN_of_compare (beq_iff_eq.mp (decide_eq_true_iff.mp h))

theorem time_le_refl {x : Float} (hx : x.isNaN = false) : x ≤ x :=
  (le_iff_signedBits hx hx).mpr le_rfl

theorem time_le_trans {x y z : Float} (hxy : x ≤ y) (hyz : y ≤ z) : x ≤ z := by
  obtain ⟨hx, hy⟩ := isNaN_of_le hxy
  have hz := (isNaN_of_le hyz).2
  rw [le_iff_signedBits hx hy] at hxy
  rw [le_iff_signedBits hy hz] at hyz
  exact (le_iff_signedBits hx hz).mpr (hxy.trans hyz)

theorem time_lt_of_le_of_lt {x y z : Float} (hxy : x ≤ y) (hyz : y < z) : x < z := by
  obtain ⟨hx, hy⟩ := isNaN_of_le hxy
  have hz := (isNaN_of_lt hyz).2
  rw [le_iff_signedBits hx hy] at hxy
  rw [lt_iff_signedBits hy hz] at hyz
  exact (lt_iff_signedBits hx hz).mpr (hxy.trans_lt hyz)

theorem time_lt_of_lt_of_le {x y z : Float} (hxy : x < y) (hyz : y ≤ z) : x < z := by
  obtain ⟨hx, hy⟩ := isNaN_of_lt hxy
  have hz := (isNaN_of_le hyz).2
  rw [lt_iff_signedBits hx hy] at hxy
  rw [le_iff_signedBits hy hz] at hyz
  exact (lt_iff_signedBits hx hz).mpr (hxy.trans_le hyz)

theorem time_le_of_lt {x y : Float} (h : x < y) : x ≤ y := by
  obtain ⟨hx, hy⟩ := isNaN_of_lt h
  rw [lt_iff_signedBits hx hy] at h
  exact (le_iff_signedBits hx hy).mpr h.le

theorem time_not_lt {x y : Float} (hx : x.isNaN = false) (hy : y.isNaN = false) :
    ¬ y < x ↔ x ≤ y := by
  rw [lt_iff_signedBits hy hx, le_iff_signedBits hx hy, not_lt]

/-- A number that only one pattern of bits stands for: neither `-0` nor no number at all. -/
def Plain (x : Float) : Prop :=
  x.isNaN = false ∧ x ≠ -0.0

instance (x : Float) : Decidable (Plain x) :=
  inferInstanceAs (Decidable (_ ∧ _))

theorem toNat_toBits_ne {x : Float} (hx : x ≠ -0.0) : x.toBits.toNat ≠ 2 ^ 63 := by
  intro h
  apply hx
  rw [← Float.toBits_inj, ← UInt64.toNat_inj, h]
  rfl

/-- The total order tells `-0` from `0`; apart from that it is the order of the signed bits. -/
theorem timeRank_eq {x : Float} (hx : x ≠ -0.0) :
    timeRank x = if 0 ≤ signedBits x.toBits.toNat then signedBits x.toBits.toNat
      else signedBits x.toBits.toNat - 1 := by
  have hbits := toNat_toBits_ne hx
  simp only [timeRank, signedBits, Nat.pow_eq]
  split_ifs <;> omega

theorem le_iff_timeRank {x y : Float} (hx : Plain x) (hy : Plain y) :
    x ≤ y ↔ timeRank x ≤ timeRank y := by
  rw [le_iff_signedBits hx.1 hy.1, timeRank_eq hx.2, timeRank_eq hy.2]
  split_ifs <;> omega

/-- The total order keeps the order of numbers, `-0` among them. -/
theorem le_of_timeRank_le {x y : Float} (hx : x.isNaN = false) (hy : y.isNaN = false)
    (h : timeRank x ≤ timeRank y) : x ≤ y := by
  rw [le_iff_signedBits hx hy]
  simp only [timeRank, Nat.pow_eq] at h
  simp only [signedBits]
  split_ifs at h ⊢ <;> omega

/-- No two numbers share a place. -/
theorem timeRank_injective : Function.Injective timeRank := by
  intro x y h
  have hx := x.toBits.toNat_lt
  have hy := y.toBits.toNat_lt
  rw [← Float.toBits_inj, ← UInt64.toNat_inj]
  simp only [timeRank, Nat.pow_eq] at h
  split_ifs at h <;> omega

/-! ### The lesser and the greater of two times -/

theorem earlier_eq_or (x y : Float) : earlier x y = x ∨ earlier x y = y := by
  rw [earlier]
  split_ifs <;> simp

theorem later_eq_or (x y : Float) : later x y = x ∨ later x y = y := by
  rw [later]
  split_ifs <;> simp

theorem isNaN_later {x : Float} (hx : x.isNaN = false) (y : Float) :
    (later x y).isNaN = false := by
  rw [later, hx, if_neg Bool.false_ne_true]
  split_ifs with h
  · exact (isNaN_of_lt h).2
  · exact hx

/-- Only numbers lie beyond another time, so the greater of two times does just if one of them
does. -/
theorem lt_later {x y : Float} (hx : x.isNaN = false) {z : Float} :
    z < later x y ↔ z < x ∨ z < y := by
  rw [later, hx, if_neg Bool.false_ne_true]
  split_ifs with h
  · exact ⟨.inr, fun hz => hz.elim (fun hz => time_lt_of_le_of_lt (time_le_of_lt hz) h) id⟩
  · refine ⟨.inl, fun hz => hz.elim id fun hz => ?_⟩
    by_contra hzx
    have hxz : x ≤ z := (time_not_lt hx (isNaN_of_lt hz).1).mp hzx
    exact h (time_lt_of_le_of_lt hxz hz)

section Numbers
variable {x y : Float} (hx : x.isNaN = false) (hy : y.isNaN = false)
include hx hy

theorem earlier_le : earlier x y ≤ x ∧ earlier x y ≤ y := by
  rw [earlier, hx, if_neg Bool.false_ne_true]
  split_ifs with h
  · exact ⟨time_le_of_lt h, time_le_refl hy⟩
  · exact ⟨time_le_refl hx, (time_not_lt hx hy).mp h⟩

theorem le_later : x ≤ later x y ∧ y ≤ later x y := by
  rw [later, hx, if_neg Bool.false_ne_true]
  split_ifs with h
  · exact ⟨time_le_of_lt h, time_le_refl hy⟩
  · exact ⟨time_le_refl hx, (time_not_lt hy hx).mp h⟩

end Numbers

end Switchover
