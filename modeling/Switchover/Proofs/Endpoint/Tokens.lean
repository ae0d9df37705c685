import Mathlib
import Switchover.Endpoint.Order

/-!
Names as tokens. A run of digits is one token, and so is every other character. The comparison that
walks two names in step compares their tokens from the left, a name that ends first being the
lesser, where two runs compare as the numbers they spell, however many digits they have.
-/
namespace Switchover

open Text (digitsValue)

/-! ### The numbers that digits spell -/

theorem foldl_digits (s : List Char) (n : Nat) :
    s.foldl (fun n c => 10 * n + (c.toNat - 48)) n = n * 10 ^ s.length + digitsValue s := by
  induction s generalizing n with
  | nil => simp [digitsValue]
  | cons c s ih =>
    rw [digitsValue, List.foldl_cons, List.foldl_cons, ih, ih (10 * 0 + _), List.length_cons]
    ring

theorem digitsValue_cons (c : Char) (s : List Char) :
    digitsValue (c :: s) = (c.toNat - 48) * 10 ^ s.length + digitsValue s := by
  rw [digitsValue, List.foldl_cons, foldl_digits]
  simp

theorem isDigit_iff {c : Char} : c.isDigit = true ↔ 48 ≤ c.toNat ∧ c.toNat ≤ 57 :=
  Char.isDigit_iff_toNat

theorem digitsValue_lt {s : List Char} (h : ∀ c ∈ s, c.isDigit = true) :
    digitsValue s < 10 ^ s.length := by
  induction s with
  | nil => decide
  | cons c s ih =>
    have hc := isDigit_iff.mp (h c (List.mem_cons_self ..))
    have hs := ih fun d hd => h d (List.mem_cons_of_mem c hd)
    rw [digitsValue_cons, List.length_cons, pow_succ]
    have hle : (c.toNat - 48) * 10 ^ s.length ≤ 9 * 10 ^ s.length :=
      Nat.mul_le_mul_right _ (by omega)
    omega

/-- Zeros in front do not count. -/
theorem digitsValue_dropWhile (s : List Char) :
    digitsValue (s.dropWhile (· == '0')) = digitsValue s := by
  induction s with
  | nil => rfl
  | cons c s ih =>
    rw [List.dropWhile_cons]
    split_ifs with hc
    · obtain rfl := beq_iff_eq.mp hc
      rw [ih, digitsValue_cons]
      simp
    · rfl

theorem char_lt_iff {c d : Char} : c < d ↔ c.toNat < d.toNat :=
  UInt32.lt_iff_toNat_lt

section SameLength
variable {x y : List Char} (hx : ∀ c ∈ x, c.isDigit = true) (hy : ∀ c ∈ y, c.isDigit = true)
include hx hy

/-- Of numbers with as many digits, the first digit in which they differ decides. -/
theorem digits_lt_iff (h : x.length = y.length) : x < y ↔ digitsValue x < digitsValue y := by
  induction x generalizing y with
  | nil =>
    obtain rfl := List.length_eq_zero_iff.mp h.symm
    simp
  | cons c x ih =>
    cases y with
    | nil => cases h
    | cons d y =>
      have hc := isDigit_iff.mp (hx c (List.mem_cons_self ..))
      have hd := isDigit_iff.mp (hy d (List.mem_cons_self ..))
      have hx' : ∀ e ∈ x, e.isDigit = true := fun e he => hx e (List.mem_cons_of_mem c he)
      have hy' : ∀ e ∈ y, e.isDigit = true := fun e he => hy e (List.mem_cons_of_mem d he)
      have hlen : x.length = y.length := Nat.succ.inj h
      have hbound := digitsValue_lt hx'
      have hbound' := digitsValue_lt hy'
      rw [List.cons_lt_cons_iff, ih hx' hy' hlen, digitsValue_cons, digitsValue_cons, char_lt_iff]
      rw [hlen] at hbound ⊢
      rcases lt_trichotomy c.toNat d.toNat with hlt | heq | hgt
      · have hstep : (c.toNat - 48 + 1) * 10 ^ y.length ≤ (d.toNat - 48) * 10 ^ y.length :=
          Nat.mul_le_mul_right _ (by omega)
        rw [Nat.succ_mul] at hstep
        exact iff_of_true (.inl hlt) (by omega)
      · obtain rfl := Char.toNat_inj.mp heq
        simp
      · have hstep : (d.toNat - 48 + 1) * 10 ^ y.length ≤ (c.toNat - 48) * 10 ^ y.length :=
          Nat.mul_le_mul_right _ (by omega)
        rw [Nat.succ_mul] at hstep
        refine iff_of_false ?_ (by omega)
        rintro (hlt | ⟨rfl, -⟩) <;> omega

theorem compare_digits (h : x.length = y.length) :
    compareOfLessAndEq x y = compare (digitsValue x) (digitsValue y) := by
  have hlt := digits_lt_iff hx hy h
  have hgt := digits_lt_iff hy hx h.symm
  rw [compareOfLessAndEq]
  rcases lt_trichotomy (digitsValue x) (digitsValue y) with hv | hv | hv
  · rw [if_pos (hlt.mpr hv), compare_lt_iff_lt.mpr hv]
  · have hnlt : ¬ x < y := by rw [hlt]; omega
    have hngt : ¬ y < x := by rw [hgt]; omega
    rw [if_neg hnlt, if_pos (List.le_antisymm (List.not_lt.mp hngt) (List.not_lt.mp hnlt)),
      compare_eq_iff_eq.mpr hv]
  · have hne : x ≠ y := by rintro rfl; omega
    rw [if_neg (by rw [hlt]; omega), if_neg hne, compare_gt_iff_gt.mpr hv]

end SameLength

/-- Of two numbers without leading zeros the one with more digits is the greater. -/
theorem digitsValue_lt_of_length {x y : List Char} (hx : ∀ c ∈ x, c.isDigit = true)
    (hy : ∀ c ∈ y, c.isDigit = true) (hzero : y.head? ≠ some '0') (h : x.length < y.length) :
    digitsValue x < digitsValue y := by
  cases y with
  | nil => cases h
  | cons d y =>
    have hd := isDigit_iff.mp (hy d (List.mem_cons_self ..))
    have hne : d.toNat ≠ 48 := fun heq => hzero (congrArg some (Char.toNat_inj.mp heq))
    calc digitsValue x < 10 ^ x.length := digitsValue_lt hx
      _ ≤ 10 ^ y.length := Nat.pow_le_pow_right (by decide) (Nat.lt_succ_iff.mp h)
      _ ≤ (d.toNat - 48) * 10 ^ y.length := Nat.le_mul_of_pos_left _ (by omega)
      _ ≤ digitsValue (d :: y) := by rw [digitsValue_cons]; exact Nat.le_add_right ..

theorem head?_dropWhile_zero (s : List Char) :
    (s.dropWhile (· == '0')).head? ≠ some '0' := by
  intro h
  have := List.head?_dropWhile_not (· == '0') s
  rw [h] at this
  simp at this

/-- Runs of digits compare as the numbers that they spell. -/
theorem compareRuns_eq {x y : List Char} (hx : ∀ c ∈ x, c.isDigit = true)
    (hy : ∀ c ∈ y, c.isDigit = true) :
    compareRuns x y = compare (digitsValue x) (digitsValue y) := by
  have hx' : ∀ c ∈ x.dropWhile (· == '0'), c.isDigit = true := fun c hc =>
    hx c ((List.dropWhile_sublist _).subset hc)
  have hy' : ∀ c ∈ y.dropWhile (· == '0'), c.isDigit = true := fun c hc =>
    hy c ((List.dropWhile_sublist _).subset hc)
  rw [← digitsValue_dropWhile x, ← digitsValue_dropWhile y, compareRuns]
  rcases lt_trichotomy (x.dropWhile (· == '0')).length (y.dropWhile (· == '0')).length with
    hlen | hlen | hlen
  · have hlt := digitsValue_lt_of_length hx' hy' (head?_dropWhile_zero y) hlen
    rw [compare_lt_iff_lt.mpr hlen, compare_lt_iff_lt.mpr hlt]
    rfl
  · rw [compare_eq_iff_eq.mpr hlen, compare_digits hx' hy' hlen]
    rfl
  · have hgt := digitsValue_lt_of_length hy' hx' (head?_dropWhile_zero x) hlen
    rw [compare_gt_iff_gt.mpr hlen, compare_gt_iff_gt.mpr hgt]
    rfl

/-! ### Tokens -/

/-- A place of a name: a run of digits as a number, or a character that is no digit. -/
inductive Token where
  | number (n : Nat)
  | sign (c : Char)
  deriving DecidableEq, Repr

namespace Token

/-- Where a token stands among the characters. All digits stand in one place: no other character is
between two of them. -/
def place : Token → Nat
  | number _ => '0'.toNat
  | sign c => c.toNat

/-- What tells numbers apart. -/
def value : Token → Nat
  | number n => n
  | sign _ => 0

/-- The order of tokens: characters by code point, numbers by value, a number and a character as any
digit and that character. -/
def order : Token → Token → Ordering :=
  compareLex (compareOn place) (compareOn value)

instance : Std.TransCmp order :=
  inferInstanceAs (Std.TransCmp (compareLex _ _))

theorem order_number (m n : Nat) : order (number m) (number n) = compare m n := by
  have hplace : compare (number m).place (number n).place = .eq := compare_eq_iff_eq.mpr rfl
  rw [order, compareLex, compareOn, hplace]
  rfl

theorem order_of_place_lt {x y : Token} (h : x.place < y.place) : order x y = .lt := by
  rw [order, compareLex, compareOn, compare_lt_iff_lt.mpr h]
  rfl

theorem order_of_place_gt {x y : Token} (h : y.place < x.place) : order x y = .gt := by
  rw [order, compareLex, compareOn, compare_gt_iff_gt.mpr h]
  rfl

end Token

/-- The tokens of a text. -/
def tokens : List Char → List Token
  | [] => []
  | c :: s =>
    if c.isDigit then
      .number (digitsValue (c :: s.takeWhile Char.isDigit)) :: tokens (s.dropWhile Char.isDigit)
    else .sign c :: tokens s
termination_by s => s.length
decreasing_by
  · have := (List.dropWhile_sublist (l := s) Char.isDigit).length_le
    simp only [List.length_cons]
    omega
  · simp

theorem tokens_cons_digit {c : Char} (s : List Char) (h : c.isDigit = true) :
    tokens (c :: s) =
      .number (digitsValue (c :: s.takeWhile Char.isDigit)) ::
        tokens (s.dropWhile Char.isDigit) := by
  rw [tokens, if_pos h]

theorem tokens_cons_sign {c : Char} (s : List Char) (h : ¬ c.isDigit = true) :
    tokens (c :: s) = .sign c :: tokens s := by
  rw [tokens, if_neg h]

theorem all_digits_cons_takeWhile {c : Char} (s : List Char) (h : c.isDigit = true) :
    ∀ d ∈ c :: s.takeWhile Char.isDigit, d.isDigit = true := by
  intro d hd
  rcases List.mem_cons.mp hd with rfl | hd
  · exact h
  · exact List.mem_takeWhile_imp hd

/-- Where two names first differ and not both go on with a digit, the lesser character decides. -/
theorem compareLex_tokens_of_lt {c d : Char} (s t : List Char)
    (hdigits : ¬ (c.isDigit = true ∧ d.isDigit = true)) (h : c < d) :
    List.compareLex Token.order (tokens (c :: s)) (tokens (d :: t)) = .lt ∧
      List.compareLex Token.order (tokens (d :: t)) (tokens (c :: s)) = .gt := by
  obtain ⟨x, u, hx, hxc⟩ : ∃ x u, tokens (c :: s) = x :: u ∧
      (x.place = c.toNat ∨ x.place = 48 ∧ c.isDigit = true) := by
    by_cases hc : c.isDigit = true
    · exact ⟨_, _, tokens_cons_digit s hc, .inr ⟨rfl, hc⟩⟩
    · exact ⟨_, _, tokens_cons_sign s hc, .inl rfl⟩
  obtain ⟨y, v, hy, hyd⟩ : ∃ y v, tokens (d :: t) = y :: v ∧
      (y.place = d.toNat ∨ y.place = 48 ∧ d.isDigit = true) := by
    by_cases hd : d.isDigit = true
    · exact ⟨_, _, tokens_cons_digit t hd, .inr ⟨rfl, hd⟩⟩
    · exact ⟨_, _, tokens_cons_sign t hd, .inl rfl⟩
  have hplace : x.place < y.place := by
    have := char_lt_iff.mp h
    simp only [isDigit_iff] at hdigits hxc hyd
    omega
  rw [hx, hy, List.compareLex_cons_cons, List.compareLex_cons_cons,
    Token.order_of_place_lt hplace, Token.order_of_place_gt hplace]
  exact ⟨rfl, rfl⟩

/-- Walking two names in step compares their tokens. -/
theorem compareNatural_eq (x y : List Char) :
    compareNatural x y = List.compareLex Token.order (tokens x) (tokens y) := by
  fun_induction compareNatural x y with
  | case1 => rw [tokens, List.compareLex_nil_nil]
  | case2 d t =>
    by_cases hd : d.isDigit = true
    · rw [tokens_cons_digit t hd, tokens, List.compareLex_nil_cons]
    · rw [tokens_cons_sign t hd, tokens, List.compareLex_nil_cons]
  | case3 c s =>
    by_cases hc : c.isDigit = true
    · rw [tokens_cons_digit s hc, tokens, List.compareLex_cons_nil]
    · rw [tokens_cons_sign s hc, tokens, List.compareLex_cons_nil]
  | case4 c s d t h ih =>
    rw [ih, tokens_cons_digit s h.1, tokens_cons_digit t h.2, List.compareLex_cons_cons,
      Token.order_number,
      compareRuns_eq (all_digits_cons_takeWhile s h.1) (all_digits_cons_takeWhile t h.2)]
  | case5 s c t h ih =>
    have hc : ¬ c.isDigit = true := fun hc => h ⟨hc, hc⟩
    have hself : Token.order (.sign c) (.sign c) = .eq := Std.ReflCmp.compare_self
    rw [ih, tokens_cons_sign s hc, tokens_cons_sign t hc, List.compareLex_cons_cons, hself]
    rfl
  | case6 c s d t h hne hlt => exact (compareLex_tokens_of_lt s t h hlt).1.symm
  | case7 c s d t h hne hlt =>
    have hgt : d < c := lt_of_le_of_ne (not_lt.mp hlt) (Ne.symm hne)
    exact (compareLex_tokens_of_lt t s (fun hdigits => h hdigits.symm) hgt).2.symm

end Switchover
