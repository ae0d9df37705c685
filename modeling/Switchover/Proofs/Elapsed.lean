import Mathlib
import Switchover.Proofs.Length

/-!
Sums and differences of times. Both are rounded once, so adding a time that is not negative takes
nothing away from a sum, and the time from one moment to a later one is not negative. A sum or a
difference can be infinite, but none of these is no number at all.
-/
namespace Switchover
open Float.Model Float.Model.UnpackedFloat

/-! ### Times in units of the least one -/

/-- The number of units `2 ^ -1074` in a finite time, with its sign. -/
def signedUnits (x : Float) : Int :=
  match x.toModel.unpack with
  | .finite s m e _ => s.apply (m * 2 ^ (e + 1074).toNat : Nat)
  | _ => 0

theorem signedUnits_zero {x : Float} {s : Sign} (h : x.toModel.unpack = .zero s) :
    signedUnits x = 0 := by
  rw [signedUnits, h]

theorem signedUnits_finite {x : Float} {s : Sign} {m : Nat} {e : Int} {hm : 0 < m}
    (h : x.toModel.unpack = .finite s m e hm) :
    signedUnits x = s.apply (m * 2 ^ (e + 1074).toNat : Nat) := by
  rw [signedUnits, h]

/-- What has all bits of a mantissa is not rounded. -/
theorem nearestBits_canonical {m : Nat} {e : Int} {hm : 0 < m}
    (h : Canonical (.finite .positive m e hm)) :
    (nearestBits (m * 2 ^ (e + 2148).toNat) : Int) = (e + 1074) * 2 ^ 52 + m := by
  simp only [Canonical] at h
  obtain ⟨i, hi⟩ : ∃ i, (e + 2148).toNat = i := ⟨_, rfl⟩
  have hlog : m.log2 ≤ 52 := Nat.lt_succ_iff.mp ((Nat.log2_lt hm.ne').mpr h.1)
  have hleading : 2 ^ 52 ≤ m → 52 ≤ m.log2 := (Nat.le_log2 hm.ne').mpr
  have hexcess : excessBits (m * 2 ^ i) = i := by
    rw [excessBits, log2_scaled hm.ne']
    omega
  have hkept : nearestShift (m * 2 ^ i) i = m :=
    (nearestShift_scaled m i 0).trans (nearestShift_zero_right m)
  rw [hi, nearestBits, hexcess, hkept]
  omega

theorem two_pow_add {e : Int} (he : -1074 ≤ e) (n : Nat) :
    n * 2 ^ (e + 1074).toNat * 2 ^ 1074 = n * 2 ^ (e + 2148).toNat := by
  have hexp : (e + 2148).toNat = (e + 1074).toNat + 1074 := by omega
  rw [hexp, Nat.pow_add, Nat.mul_assoc]

/-- Two mantissas are first shifted to the lesser one of their exponents. -/
theorem apply_decreaseExponent (s : Sign) (m : Nat) {e least : Int} (hle : least ≤ e)
    (hleast : -1074 ≤ least) :
    s.apply (decreaseExponent m e least).1 * (2 ^ (least + 1074).toNat : Nat) =
      s.apply (m * 2 ^ (e + 1074).toNat : Nat) := by
  have hexp : (e + 1074).toNat = (e - least).toNat + (least + 1074).toNat := by omega
  have hnat : m <<< (e - least).toNat * 2 ^ (least + 1074).toNat = m * 2 ^ (e + 1074).toNat := by
    rw [Nat.shiftLeft_eq, hexp, Nat.pow_add, Nat.mul_assoc]
  rw [decreaseExponent, ← hnat]
  cases s with
  | positive => simp [Sign.apply]
  | negative => simp [Sign.apply]

/-- The bits of a length are those of the number nearest to it, itself. -/
theorem signedBits_length {x : Float} (hx : IsLength x) :
    signedBits x.toBits.toNat = nearestBits (units x * 2 ^ 1074) := by
  rcases hx.unpack_eq with ⟨s, hux, hbx⟩ | ⟨m, e, hm, hux, hcx, hbx⟩
  · rw [units, hux, Nat.zero_mul, nearestBits_zero, hbx]
    rfl
  · rw [units, hux, hbx, two_pow_add (by simp only [Canonical] at hcx; omega),
      nearestBits_canonical hcx]

theorem signedBits_pack_finite {m : Nat} {e : Int} {hm : 0 < m}
    (h : Canonical (.finite .positive m e hm)) :
    signedBits (UnpackedFloat.pack Format.binary64 (.finite .positive m e hm)).toNat =
      nearestBits (m * 2 ^ (e + 1074).toNat * 2 ^ 1074) := by
  have hbits := nearestBits_canonical h
  simp only [Canonical] at h
  have hpack := toNat_pack (e := e) h.1 (by omega)
  rw [ofMantissa, dif_neg hm.ne'] at hpack
  rw [two_pow_add (e := e) (by omega), signedBits, if_pos (by omega), hpack, hbits]
  omega

/-! ### Sums -/

theorem zero_le_of_nearestBits {x : Float} {n : Nat}
    (hx : signedBits x.toBits.toNat = nearestBits n) : 0 ≤ x := by
  refine le_of_nearestBits (m := 0) ?_ hx (Nat.zero_le n)
  rw [signedBits_toBits_zero, nearestBits_zero]
  rfl

theorem toBits_add (x y : Float) : (x + y).toBits.toBitVec = UnpackedFloat.pack Format.binary64
    (UnpackedFloat.add Format.binary64 x.toModel.unpack y.toModel.unpack) := rfl

/-- The bits of a sum are those of the number nearest to it. -/
theorem signedBits_add {x y : Float} (hx : IsLength x) (hy : IsLength y) :
    signedBits (x + y).toBits.toNat = nearestBits ((units x + units y) * 2 ^ 1074) := by
  rw [← UInt64.toNat_toBitVec, toBits_add, units, units]
  rcases hx.unpack_eq with ⟨s, hux, -⟩ | ⟨m, e, hm, hux, hcx, -⟩ <;>
    rcases hy.unpack_eq with ⟨s', huy, -⟩ | ⟨m', e', hm', huy, hcy, -⟩ <;>
    rw [hux, huy]
  · rw [Nat.zero_add, Nat.zero_mul, nearestBits_zero]
    cases s <;> cases s' <;> exact signedBits_zero _
  · rw [Nat.zero_add]
    exact signedBits_pack_finite hcy
  · rw [Nat.add_zero]
    exact signedBits_pack_finite hcx
  · simp only [Canonical] at hcx hcy
    have hmx := apply_decreaseExponent .positive m (min_le_left e e') (by omega)
    have hmy := apply_decreaseExponent .positive m' (min_le_right e e') (by omega)
    have hsum : ((decreaseExponent m e (min e e')).1 + (decreaseExponent m' e' (min e e')).1) *
        2 ^ (min e e' + 1074).toNat =
          m * 2 ^ (e + 1074).toNat + m' * 2 ^ (e' + 1074).toNat := by
      simp only [Sign.apply] at hmx hmy
      rw [Nat.add_mul]
      exact_mod_cast congrArg₂ (· + ·) hmx hmy
    rw [← hsum, two_pow_add (by omega)]
    exact signedBits_pack_normalize _ (by omega)

theorem signedBits_le {x : Float} (hx : x.isNaN = false) :
    signedBits x.toBits.toNat ≤ 2047 * 2 ^ 52 := by
  obtain ⟨hcanonical, hgauge⟩ := gauge_unpack _ (unpack_ne hx)
  rw [← UInt64.toNat_toBitVec, ← hgauge]
  cases hu : UnpackedFloat.unpack Format.binary64 x.toBits.toBitVec with
  | notANumber => exact absurd hu (unpack_ne hx)
  | infinity s => cases s <;> decide
  | zero s => simp [gauge]
  | finite s m e hm =>
    rw [hu] at hcanonical
    simp only [Canonical] at hcanonical
    cases s <;> simp only [gauge, Sign.apply] <;> omega

/-- No time exceeds infinity. -/
theorem le_of_infinite {x z : Float} (hx : x.isNaN = false)
    (hz : z.toBits.toBitVec = UnpackedFloat.pack Format.binary64 (.infinity .positive)) :
    x ≤ z := by
  have hbits : signedBits z.toBits.toNat = 2047 * 2 ^ 52 := by
    rw [← UInt64.toNat_toBitVec, hz]
    decide
  have hnumber : z.isNaN = false := isNaN_of_signedBits (by omega) (by omega)
  rw [le_iff_signedBits hx hnumber, hbits]
  exact signedBits_le hx

theorem isLength_or_infinite {x : Float} (hx : 0 ≤ x) :
    IsLength x ∨ x.toModel.unpack = .infinity .positive := by
  have hnumber := (isNaN_of_le hx).2
  have hnonneg : ¬ x < 0 := (time_not_lt isNaN_zero hnumber).mpr hx
  have hfinite : x.isFinite = x.toModel.unpack.isFinite := rfl
  cases hu : x.toModel.unpack with
  | notANumber => exact absurd hu (unpack_ne hnumber)
  | infinity s =>
    cases s with
    | positive => exact .inr rfl
    | negative =>
      have hgauge := (gauge_unpack _ (unpack_ne hnumber)).2
      change gauge x.toModel.unpack = _ at hgauge
      rw [lt_zero_iff hnumber, ← UInt64.toNat_toBitVec, ← hgauge, hu] at hnonneg
      exact absurd (by decide) hnonneg
  | _ => exact .inl ⟨by rw [hfinite, hu]; rfl, hnonneg⟩

theorem toBits_add_infinite {x y : Float} (hx : 0 ≤ x) (hy : 0 ≤ y)
    (h : x.toModel.unpack = .infinity .positive ∨ y.toModel.unpack = .infinity .positive) :
    (x + y).toBits.toBitVec = UnpackedFloat.pack Format.binary64 (.infinity .positive) := by
  have hkinds : ∀ {z : Float}, 0 ≤ z → (∃ s, z.toModel.unpack = .zero s) ∨
      (∃ m e hm, z.toModel.unpack = .finite .positive m e hm) ∨
      z.toModel.unpack = .infinity .positive := by
    intro z hz
    rcases isLength_or_infinite hz with hlength | hu
    · rcases hlength.unpack_eq with ⟨s, hu, -⟩ | ⟨m, e, hm, hu, -⟩
      · exact .inl ⟨s, hu⟩
      · exact .inr (.inl ⟨m, e, hm, hu⟩)
    · exact .inr (.inr hu)
  rw [toBits_add]
  rcases h with hux | huy
  · rcases hkinds hy with ⟨s, huy⟩ | ⟨m, e, hm, huy⟩ | huy <;> rw [hux, huy] <;> rfl
  · rcases hkinds hx with ⟨s, hux⟩ | ⟨m, e, hm, hux⟩ | hux <;> rw [hux, huy] <;> rfl

/-- A sum of times that are not negative is at least as long as each of them. -/
theorem le_add {x y : Float} (hx : 0 ≤ x) (hy : 0 ≤ y) : x ≤ x + y ∧ y ≤ x + y := by
  have hinfinite (h) : x ≤ x + y ∧ y ≤ x + y :=
    ⟨le_of_infinite (isNaN_of_le hx).2 (toBits_add_infinite hx hy h),
      le_of_infinite (isNaN_of_le hy).2 (toBits_add_infinite hx hy h)⟩
  rcases isLength_or_infinite hx with hlx | hux
  · rcases isLength_or_infinite hy with hly | huy
    · exact ⟨le_of_nearestBits (signedBits_length hlx) (signedBits_add hlx hly)
          (Nat.mul_le_mul_right _ (Nat.le_add_right ..)),
        le_of_nearestBits (signedBits_length hly) (signedBits_add hlx hly)
          (Nat.mul_le_mul_right _ (Nat.le_add_left ..))⟩
    · exact hinfinite (.inr huy)
  · exact hinfinite (.inl hux)

/-- The sum of times that are not negative is at least as long as each of them. -/
theorem le_foldl_add {times : List Float} {start : Float} (hstart : 0 ≤ start)
    (h : ∀ x ∈ times, 0 ≤ x) :
    start ≤ times.foldl (· + ·) start ∧ ∀ x ∈ times, x ≤ times.foldl (· + ·) start := by
  induction times generalizing start with
  | nil => exact ⟨time_le_refl (isNaN_of_le hstart).2, fun x hx => absurd hx List.not_mem_nil⟩
  | cons y times ih =>
    rw [List.forall_mem_cons] at h ⊢
    obtain ⟨hle, hley⟩ := le_add hstart h.1
    obtain ⟨hfrom, hall⟩ := ih (time_le_trans hstart hle) h.2
    exact ⟨time_le_trans hle hfrom, time_le_trans hley hfrom, hall⟩

/-! ### Differences -/

theorem signedUnits_mono {x y : Float} (hx : x.isFinite = true) (hy : y.isFinite = true)
    (h : x ≤ y) : signedUnits x ≤ signedUnits y := by
  rw [le_iff_signedBits (isNaN_of_isFinite hx) (isNaN_of_isFinite hy)] at h
  rcases unpack_cases hx with ⟨s, hux, hbx⟩ | ⟨s, m, e, hm, hux, hcx, hbx⟩ <;>
    rcases unpack_cases hy with ⟨s', huy, hby⟩ | ⟨s', m', e', hm', huy, hcy, hby⟩ <;>
    rw [hbx, hby] at h
  · rw [signedUnits_zero hux, signedUnits_zero huy]
  · rw [signedUnits_zero hux, signedUnits_finite huy]
    cases s' with
    | positive => exact Int.natCast_nonneg _
    | negative =>
      simp only [Sign.apply, Canonical] at h hcy
      omega
  · rw [signedUnits_finite hux, signedUnits_zero huy]
    cases s with
    | positive =>
      simp only [Sign.apply, Canonical] at h hcx
      omega
    | negative => exact Int.neg_nonpos_of_nonneg (Int.natCast_nonneg _)
  · rw [signedUnits_finite hux, signedUnits_finite huy]
    cases s <;> cases s' <;> simp only [Sign.apply] at h ⊢
    · have hscaled := scaled_le hcy hcx (Int.neg_le_neg_iff.mp h)
      exact Int.neg_le_neg (by exact_mod_cast hscaled)
    · exact (Int.neg_nonpos_of_nonneg (Int.natCast_nonneg _)).trans (Int.natCast_nonneg _)
    · simp only [Canonical] at hcx hcy
      omega
    · exact_mod_cast scaled_le hcx hcy h

/-- The bits of the time from one moment to a later one are those of the number nearest to it. -/
theorem signedBits_sub {x y : Float} (hx : x.isFinite = true) (hy : y.isFinite = true)
    (h : x ≤ y) : signedBits (y - x).toBits.toNat =
      nearestBits ((signedUnits y - signedUnits x).toNat * 2 ^ 1074) := by
  have hbits : (y - x).toBits.toBitVec = UnpackedFloat.pack Format.binary64
    (UnpackedFloat.sub Format.binary64 y.toModel.unpack x.toModel.unpack) := rfl
  have hle := signedUnits_mono hx hy h
  rw [← UInt64.toNat_toBitVec, hbits]
  rcases unpack_cases hx with ⟨s, hux, -⟩ | ⟨s, m, e, hm, hux, hcx, -⟩ <;>
    rcases unpack_cases hy with ⟨s', huy, -⟩ | ⟨s', m', e', hm', huy, hcy, -⟩ <;>
    rw [hux, huy]
  · rw [signedUnits_zero hux, signedUnits_zero huy, Int.sub_zero, Int.toNat_zero, Nat.zero_mul,
      nearestBits_zero]
    cases s <;> cases s' <;> exact signedBits_zero _
  · rw [signedUnits_zero hux, signedUnits_finite huy] at hle ⊢
    cases s' with
    | positive =>
      rw [Int.sub_zero]
      exact signedBits_pack_finite hcy
    | negative =>
      have hpos := Nat.mul_pos hm' (Nat.two_pow_pos (e' + 1074).toNat)
      exact absurd (Int.ofNat_lt.mpr hpos) (not_lt.mpr (Int.neg_nonneg.mp hle))
  · rw [signedUnits_finite hux, signedUnits_zero huy] at hle ⊢
    cases s with
    | positive =>
      have hpos := Nat.mul_pos hm (Nat.two_pow_pos (e + 1074).toNat)
      exact absurd (Int.ofNat_lt.mpr hpos) (not_lt.mpr hle)
    | negative =>
      simp only [Sign.apply, Int.zero_sub, Int.neg_neg]
      exact signedBits_pack_finite hcx
  · have hex : -1074 ≤ e := by simp only [Canonical] at hcx; omega
    have hey : -1074 ≤ e' := by simp only [Canonical] at hcy; omega
    have hmx := apply_decreaseExponent s m (min_le_right e' e) (by omega)
    have hmy := apply_decreaseExponent s' m' (min_le_left e' e) (by omega)
    have hpow : (0 : Int) < (2 ^ (min e' e + 1074).toNat : Nat) :=
      Int.ofNat_lt.mpr (Nat.two_pow_pos _)
    rw [signedUnits_finite hux, signedUnits_finite huy, ← hmx, ← hmy] at hle ⊢
    obtain ⟨n, hn⟩ := Int.eq_ofNat_of_zero_le
      (Int.sub_nonneg_of_le (Int.le_of_mul_le_mul_right hle hpow))
    have hsub : UnpackedFloat.sub Format.binary64 (.finite s' m' e' hm') (.finite s m e hm) =
        UnpackedFloat.normalize Format.binary64 n (min e' e) .positive := by
      rw [← hn]
      rfl
    rw [← Int.sub_mul, hn, ← Int.natCast_mul, Int.toNat_natCast, two_pow_add (by omega), hsub]
    exact signedBits_pack_normalize n (by omega)

/-- The time from one moment to a later one is not negative. -/
theorem zero_le_sub {x y : Float} (hx : x.isFinite = true) (hy : y.isFinite = true)
    (h : x ≤ y) : 0 ≤ y - x :=
  zero_le_of_nearestBits (signedBits_sub hx hy h)

end Switchover
