import Mathlib
import Switchover.Decimal.Notation

/-!
The digits of a shortest decimal: there is one at least, and the first one is not zero. A grid point
that rounds to a positive number is positive itself, and where no grid is fine enough, the number is
cut behind more places than its leading digit has. A number is written with these digits, a point,
signs and letters, in any layout.
-/
namespace Switchover.Decimal

/-- Whether digits can stand before the point: a zero in front stands alone. -/
structure Leads (ds : List Char) : Prop where
  ne_nil : ds ≠ []
  isDigit : ∀ c ∈ ds, c.isDigit = true
  alone : ∀ rest, ds = '0' :: rest → rest = []

/-- Whether digits are those of a positive number, as far as the first one goes. -/
structure Significant (ds : List Char) : Prop where
  ne_nil : ds ≠ []
  isDigit : ∀ c ∈ ds, c.isDigit = true
  head_ne : ∀ rest, ds ≠ '0' :: rest

/-- The first digit and the others. -/
theorem Leads.exists_cons {ds : List Char} (h : Leads ds) :
    ∃ d more, ds = d :: more ∧ d.isDigit = true := by
  obtain ⟨d, more, rfl⟩ := List.exists_cons_of_ne_nil h.ne_nil
  exact ⟨d, more, rfl, h.isDigit d List.mem_cons_self⟩

/-! ### Natural numbers -/

theorem pow_length_toDigits {n : Nat} (hn : 0 < n) :
    10 ^ ((Nat.toDigits 10 n).length - 1) ≤ n := by
  rcases Nat.eq_zero_or_pos ((Nat.toDigits 10 n).length - 1) with hzero | hpos
  · rw [hzero, Nat.pow_zero]
    exact hn
  · by_contra hlt
    have := (Nat.length_toDigits_le_iff (b := 10) (by decide) hpos).mpr (Nat.not_le.mp hlt)
    omega

/-- The first digit of a positive number is not zero. -/
theorem head_toDigits {n : Nat} (hn : 0 < n) (rest : List Char) :
    Nat.toDigits 10 n ≠ '0' :: rest := by
  induction n using Nat.strong_induction_on generalizing rest with
  | _ n ih =>
    intro h
    rw [Nat.toDigits_eq_if (by decide)] at h
    split_ifs at h with hlt
    · have hdigit : n.digitChar = '0' := by injection h
      interval_cases n <;> cases hdigit
    · have hhead := Nat.toDigits_ne_nil (n := n / 10) (b := 10)
      cases hdigits : Nat.toDigits 10 (n / 10) with
      | nil => exact hhead hdigits
      | cons c cs =>
        rw [hdigits, List.cons_append] at h
        obtain ⟨rfl, -⟩ := List.cons.inj h
        exact ih (n / 10) (by omega) (by omega) cs hdigits

theorem leads_toDigits (n : Nat) : Leads (Nat.toDigits 10 n) where
  ne_nil := Nat.toDigits_ne_nil
  isDigit c hc := Nat.isDigit_of_mem_toDigits (by decide) (by decide) hc
  alone rest h := by
    rcases Nat.eq_zero_or_pos n with rfl | hn
    · rw [Nat.toDigits_zero] at h
      injection h with _ hrest
      exact hrest.symm
    · exact absurd h (head_toDigits hn rest)

theorem notMem_toDigits {c : Char} (h : c.isDigit = false) (n : Nat) : c ∉ Nat.toDigits 10 n := by
  intro hc
  have hdigit := (leads_toDigits n).isDigit c hc
  exact absurd hdigit (by simp [h])

theorem significant_toDigits {n : Nat} (hn : 0 < n) : Significant (Nat.toDigits 10 n) where
  ne_nil := Nat.toDigits_ne_nil
  isDigit c hc := Nat.isDigit_of_mem_toDigits (by decide) (by decide) hc
  head_ne := head_toDigits hn

/-- A part in front of significant digits is significant. -/
theorem Significant.of_prefix {ds front : List Char} (h : Significant ds) (hfront : front <+: ds)
    (hne : front ≠ []) : Significant front where
  ne_nil := hne
  isDigit c hc := h.isDigit c (hfront.subset hc)
  head_ne rest hrest := by
    obtain ⟨behind, rfl⟩ := hfront
    exact h.head_ne (rest ++ behind) (by rw [hrest, List.cons_append])

theorem Significant.leads {ds : List Char} (h : Significant ds) : Leads ds where
  ne_nil := h.ne_nil
  isDigit := h.isDigit
  alone rest hrest := absurd hrest (h.head_ne rest)

/-- Digits behind significant ones do not change what they begin with. -/
theorem Significant.append {ds more : List Char} (h : Significant ds)
    (hmore : ∀ c ∈ more, c.isDigit = true) : Significant (ds ++ more) where
  ne_nil := by simp [h.ne_nil]
  isDigit c hc := (List.mem_append.mp hc).elim (h.isDigit c) (hmore c)
  head_ne rest hrest := by
    obtain ⟨c, cs, rfl⟩ := List.exists_cons_of_ne_nil h.ne_nil
    obtain ⟨rfl, -⟩ := List.cons.inj hrest
    exact absurd rfl (h.head_ne cs)

/-! ### Shortest decimals -/

theorem minExponent_le {x : Float} {parts : Binary}
    (h : Class.of x = .finite parts) : minExponent ≤ parts.exponent := by
  simp only [Class.of, Class.ofBits] at h
  split_ifs at h with hones hinfinite hzero
  · obtain rfl := Class.finite.inj h
    exact le_rfl
  · obtain rfl := Class.finite.inj h
    rw [minExponent]
    dsimp only
    omega

/-- The digits of a grid point begin with those of the number, as zeros are dropped at the end. -/
theorem significant_ofGrid {d : Nat} (hd : 0 < d) (k : Int) :
    Significant (Digits.ofGrid d k).digits := by
  have hdigits := significant_toDigits hd
  refine hdigits.of_prefix (List.rdropWhile_prefix (· == '0') _) fun hnil => ?_
  -- otherwise all digits were zeros, the first one included
  obtain ⟨c, cs, hcons⟩ := List.exists_cons_of_ne_nil hdigits.ne_nil
  have hzero := List.rdropWhile_eq_nil_iff.mp hnil c (by simp [hcons])
  obtain rfl : c = '0' := by simpa using hzero
  exact hdigits.head_ne cs hcons

theorem pos_of_onGrid? {tie : Tie} {m d : Nat} {q k : Int} (h : onGrid? tie m q k = some d) :
    0 < d := by
  simp only [onGrid?] at h
  split at h
  · cases h
  · next hbelow _ =>
    obtain rfl := Option.some.inj h
    exact of_decide_eq_true (Bool.and_eq_true_iff.mp hbelow).2
  · obtain rfl := Option.some.inj h
    exact Nat.succ_pos _
  · next hbelow _ =>
    have hpos := of_decide_eq_true (Bool.and_eq_true_iff.mp hbelow).2
    split_ifs at h
    · exact Option.some.inj h ▸ hpos
    · exact Option.some.inj h ▸ Nat.succ_pos _
    · cases tie
      · exact Option.some.inj h ▸ Nat.succ_pos _
      · exact Option.some.inj h ▸ hpos
    · cases tie <;> exact Option.some.inj h ▸ Nat.succ_pos _

/-- A quotient with some places behind the point reaches one if the point is moved behind its
leading digit. -/
theorem le_mul_pow {a b places k : Nat} (hcut : 0 < b * 10 ^ places / a)
    (hk : places ≤ (Nat.toDigits 10 (b * 10 ^ places / a)).length - 1 + k) : a ≤ b * 10 ^ k := by
  have hpow := pow_length_toDigits hcut
  obtain ⟨l, hl⟩ : ∃ l, (Nat.toDigits 10 (b * 10 ^ places / a)).length - 1 = l := ⟨_, rfl⟩
  rw [hl] at hpow hk
  refine Nat.le_of_mul_le_mul_right ?_ (Nat.pow_pos (n := l) (show 0 < 10 by decide))
  calc a * 10 ^ l ≤ a * (b * 10 ^ places / a) := Nat.mul_le_mul_left a hpow
    _ ≤ b * 10 ^ places := Nat.mul_div_le _ _
    _ ≤ b * 10 ^ (l + k) := Nat.mul_le_mul_left b (Nat.pow_le_pow_right (by decide) hk)
    _ = b * 10 ^ k * 10 ^ l := by
      rw [Nat.pow_add]
      ring

theorem leading_eq (m : Nat) (q : Int) : leading m q =
    ((Nat.toDigits 10 (m * 2 ^ q.toNat * 10 ^ 400 / 2 ^ (-q).toNat)).length : Int) - 401 := by
  rw [leading, digitCount]
  -- a power with so many places is not to be computed
  generalize 400 = places
  rfl

/-- The leading digit is counted with 400 places, of which even the least number has some. -/
theorem two_pow_le_mul {m : Nat} {q : Int} (hm : 0 < m) (hq : minExponent ≤ q) (n : Nat) :
    Nat.pow 2 (-q).toNat ≤
      m * Nat.pow 2 q.toNat * Nat.pow 10 ((n : Int) - leading m q).toNat := by
  have htens : ∀ k, (-q).toNat ≤ 3 * k → 2 ^ (-q).toNat ≤ 10 ^ k := fun k hk =>
    calc 2 ^ (-q).toNat ≤ 2 ^ (3 * k) := Nat.pow_le_pow_right (by decide) hk
      _ = 8 ^ k := Nat.pow_mul 2 3 k
      _ ≤ 10 ^ k := Nat.pow_le_pow_left (by decide) k
  have hsmall := htens 400 (by
    rw [minExponent] at hq
    omega)
  have hcut : 0 < m * 2 ^ q.toNat * 10 ^ 400 / 2 ^ (-q).toNat :=
    Nat.div_pos (hsmall.trans (Nat.le_mul_of_pos_left _ (Nat.mul_pos hm (Nat.two_pow_pos _))))
      (Nat.two_pow_pos _)
  obtain ⟨l, hl⟩ : ∃ l,
    (Nat.toDigits 10 (m * 2 ^ q.toNat * 10 ^ 400 / 2 ^ (-q).toNat)).length = l := ⟨_, rfl⟩
  have hpos : 0 < l := hl ▸ List.length_pos_of_ne_nil Nat.toDigits_ne_nil
  have hplaces : 400 ≤ l - 1 + ((n : Int) - leading m q).toNat := by
    rw [leading_eq, hl]
    omega
  rw [← hl] at hplaces
  exact le_mul_pow hcut hplaces

theorem significant_searchGrids (tie : Tie) {m : Nat} {q : Int} (hm : 0 < m)
    (hq : minExponent ≤ q) (tries n : Nat) :
    Significant (searchGrids tie m q (leading m q) tries n).digits := by
  induction tries generalizing n with
  | zero =>
    rw [searchGrids]
    refine significant_ofGrid (Nat.div_pos ?_ (Nat.two_pow_pos _)) _
    exact two_pow_le_mul hm hq n
  | succ tries ih =>
    rw [searchGrids]
    split
    · next d hd => exact significant_ofGrid (pos_of_onGrid? hd) _
    · exact ih (n + 1)

theorem significant_shortest (tie : Tie) {m : Nat} {q : Int} (hm : 0 < m) (hq : minExponent ≤ q) :
    Significant (shortest tie m q).digits :=
  significant_searchGrids tie hm hq 17 1

/-! ### Written numbers -/

/-- Whether a character can stand in a written number: a digit, a letter, a point or a sign. -/
def IsNumberChar (c : Char) : Prop :=
  c.isAlphanum = true ∨ c ∈ ['.', '-', '+']

theorem isNumberChar_of_isDigit {c : Char} (h : c.isDigit = true) : IsNumberChar c :=
  .inl (by simp [Char.isAlphanum, h])

section Texts
variable {ds : List Char} (hds : ∀ c ∈ ds, IsNumberChar c)
include hds

theorem isNumberChar_positionalText (wholeMark : Bool) (point : Int) :
    ∀ c ∈ positionalText wholeMark ds point, IsNumberChar c := by
  have hzeros : ∀ n, ∀ c ∈ List.replicate n '0', IsNumberChar c := by
    intro n c hc
    simp [IsNumberChar, List.eq_of_mem_replicate hc]
  have htake : ∀ n, ∀ c ∈ ds.take n, IsNumberChar c := fun n c hc => hds c (List.mem_of_mem_take hc)
  have hdrop : ∀ n, ∀ c ∈ ds.drop n, IsNumberChar c := fun n c hc => hds c (List.mem_of_mem_drop hc)
  rw [positionalText]
  dsimp only
  split_ifs <;> simp only [List.forall_mem_append]
  · exact ⟨⟨by simp [IsNumberChar], hzeros _⟩, hds⟩
  · exact ⟨⟨htake _, by simp [IsNumberChar]⟩, hdrop _⟩
  · exact ⟨⟨hds, hzeros _⟩, by simp [IsNumberChar]⟩
  · exact ⟨⟨hds, hzeros _⟩, nofun⟩

theorem isNumberChar_scientificText (plusSign : Bool) (point : Int) :
    ∀ c ∈ scientificText plusSign ds point, IsNumberChar c := by
  have hplaces : ∀ c ∈ if ds.length ≤ 1 then [] else ['.'] ++ ds.drop 1, IsNumberChar c := by
    split_ifs
    · nofun
    · refine List.forall_mem_append.mpr ⟨?_, fun c hc => hds c (List.mem_of_mem_drop hc)⟩
      simp [IsNumberChar]
  have hsign : ∀ c ∈ if point - 1 < 0 then ['-'] else if plusSign then ['+'] else [],
      IsNumberChar c := by
    split_ifs <;> simp [IsNumberChar]
  have hexponent : ∀ c ∈ Nat.toDigits 10 (point - 1).natAbs, IsNumberChar c := fun c hc =>
    isNumberChar_of_isDigit ((leads_toDigits _).isDigit c hc)
  simp only [scientificText, exponentText, List.forall_mem_append]
  exact ⟨⟨fun c hc => hds c (List.mem_of_mem_take hc), hplaces⟩,
    ⟨by simp [IsNumberChar], hsign⟩, hexponent⟩

end Texts

theorem isNumberChar_magnitude (layout : Layout) {m : Nat} {q : Int} (hq : minExponent ≤ q) :
    ∀ c ∈ layout.magnitude m q, IsNumberChar c := by
  rw [Layout.magnitude]
  by_cases hm : m = 0
  · rw [if_pos hm]
    split_ifs <;> simp [IsNumberChar]
  · have hdigits := significant_shortest layout.tie (Nat.pos_of_ne_zero hm) hq
    have hds : ∀ c ∈ (shortest layout.tie m q).digits, IsNumberChar c := fun c hc =>
      isNumberChar_of_isDigit (hdigits.isDigit c hc)
    rw [if_neg hm]
    dsimp only
    split_ifs
    · exact isNumberChar_positionalText hds _ _
    · exact isNumberChar_scientificText hds _ _

theorem isNumberChar_format (layout : Layout) (x : Float) :
    ∀ c ∈ (layout.format x).toList, IsNumberChar c := by
  rw [Layout.format]
  split
  · simp [IsNumberChar]
  · split_ifs <;> simp [IsNumberChar]
  · next negative m q hclass =>
    rw [String.toList_ofList]
    refine List.forall_mem_append.mpr ⟨?_, isNumberChar_magnitude layout (minExponent_le hclass)⟩
    split_ifs <;> simp [IsNumberChar]

end Switchover.Decimal
