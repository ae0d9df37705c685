import Mathlib
import Switchover.Proofs.Endpoint.Tokens
import Switchover.Proofs.Text.Stretches
import Switchover.Text.Blank

/-!
Which texts are read as numbers. A numeral is an optional plus sign with at least one digit behind
it, however many zeros there are in front. A reader with a bound takes the numerals whose number is
within the bound and no other text, and blanks around a numeral do not count.
-/
namespace Switchover.Text

/-- Whether a text is a numeral, and the number that it spells. -/
inductive IsNumeral : List Char → Nat → Prop where
  | plain {ds : List Char} (hne : ds ≠ []) (hds : ∀ c ∈ ds, c.isDigit = true) :
      IsNumeral ds (digitsValue ds)
  | signed {ds : List Char} (hne : ds ≠ []) (hds : ∀ c ∈ ds, c.isDigit = true) :
      IsNumeral ('+' :: ds) (digitsValue ds)

/-- Whether a text is a numeral between blanks, and the number that it spells. -/
def IsField (s : List Char) (n : Nat) : Prop :=
  ∃ front numeral back, s = front ++ numeral ++ back ∧ (∀ c ∈ front, isBlank c = true) ∧
    (∀ c ∈ back, isBlank c = true) ∧ IsNumeral numeral n

/-! ### Digits -/

theorem digitValue?_eq (c : Char) :
    digitValue? c = if c.isDigit then some (c.toNat - 48) else none := by
  rw [digitValue?]
  refine if_congr ?_ rfl rfl
  rw [isDigit_iff, ← not_lt, ← not_lt, char_lt_iff, char_lt_iff, not_lt, not_lt]
  rfl

/-- A number that fits the bound does so from its first digit on. -/
theorem foldlM_pushDigit_eq_ok {bound m n : Nat} {s : List Char} (hm : m ≤ bound) :
    s.foldlM (pushDigit bound) m = .ok n ↔ (∀ c ∈ s, c.isDigit = true) ∧
      s.foldl (fun n c => 10 * n + (c.toNat - 48)) m = n ∧ n ≤ bound := by
  induction s generalizing m with
  | nil =>
    simp only [List.foldlM_nil, List.foldl_nil, List.not_mem_nil, false_implies, implies_true,
      true_and]
    constructor
    · rintro ⟨⟩
      exact ⟨rfl, hm⟩
    · rintro ⟨rfl, -⟩
      rfl
  | cons c s ih =>
    rw [List.foldlM_cons, pushDigit, digitValue?_eq, List.foldl_cons, List.forall_mem_cons]
    by_cases hc : c.isDigit = true
    · rw [if_pos hc]
      dsimp only
      by_cases hle : 10 * m + (c.toNat - 48) ≤ bound
      · rw [if_pos hle]
        exact (ih hle).trans (by simp [hc])
      · -- what follows makes the number no smaller
        rw [if_neg hle]
        refine iff_of_false nofun ?_
        rintro ⟨-, rfl, hbound⟩
        rw [foldl_digits] at hbound
        have hgrows := Nat.le_mul_of_pos_right (10 * m + (c.toNat - 48))
          (Nat.pow_pos (a := 10) (n := s.length) (by decide))
        omega
    · rw [if_neg hc]
      exact iff_of_false nofun fun h => hc h.1.1

theorem readDigits_eq_ok {bound n : Nat} {s : List Char} :
    readDigits bound s = .ok n ↔
      (∀ c ∈ s, c.isDigit = true) ∧ digitsValue s = n ∧ n ≤ bound :=
  foldlM_pushDigit_eq_ok (Nat.zero_le bound)

/-! ### Numerals -/

theorem isNumeral_cons_plus {s : List Char} {n : Nat} :
    IsNumeral ('+' :: s) n ↔ s ≠ [] ∧ (∀ c ∈ s, c.isDigit = true) ∧ digitsValue s = n := by
  constructor
  · rintro (⟨-, hds⟩ | ⟨hne, hds⟩)
    · exact absurd (hds '+' (List.mem_cons_self ..)) (by decide)
    · exact ⟨hne, hds, rfl⟩
  · rintro ⟨hne, hds, rfl⟩
    exact .signed hne hds

theorem isNumeral_of_ne_plus {s : List Char} {n : Nat} (hplus : ∀ t, s ≠ '+' :: t) :
    IsNumeral s n ↔ s ≠ [] ∧ (∀ c ∈ s, c.isDigit = true) ∧ digitsValue s = n := by
  constructor
  · rintro (⟨hne, hds⟩ | ⟨hne, hds⟩)
    · exact ⟨hne, hds, rfl⟩
    · exact absurd rfl (hplus _)
  · rintro ⟨hne, hds, rfl⟩
    exact .plain hne hds

/-- Exactly the numerals within the bound are read. -/
theorem readNumeral_eq_ok {bound n : Nat} {s : List Char} :
    readNumeral bound s = .ok n ↔ IsNumeral s n ∧ n ≤ bound := by
  rw [readNumeral.eq_def]
  split
  · simp [isNumeral_of_ne_plus]
  · simp [isNumeral_cons_plus]
  · next t hne =>
    have hne : t ≠ [] := fun h => hne (by rw [h])
    rw [readDigits_eq_ok, isNumeral_cons_plus]
    tauto
  · next hne _ hplus =>
    rw [readDigits_eq_ok, isNumeral_of_ne_plus hplus]
    tauto

theorem IsNumeral.isField {s : List Char} {n : Nat} (h : IsNumeral s n) : IsField s n :=
  ⟨[], s, [], (List.append_nil s).symm, nofun, nofun, h⟩

theorem isNumeral_toDigits (n : Nat) : IsNumeral (Nat.toDigits 10 n) n := by
  have h := IsNumeral.plain Nat.toDigits_ne_nil fun c hc =>
    Nat.isDigit_of_mem_toDigits (b := 10) (n := n) (by decide) (by decide) hc
  have hvalue : digitsValue (Nat.toDigits 10 n) = n := Nat.ofDigitChars_ten_toDigits
  rwa [hvalue] at h

/-! ### Blanks around a numeral -/

theorem isBlank_of_isDigit {c : Char} (h : c.isDigit = true) : isBlank c = false := by
  rw [isDigit_iff] at h
  simp only [isBlank, Bool.or_eq_false_iff, Bool.and_eq_false_iff, decide_eq_false_iff_not,
    beq_eq_false_iff_ne]
  omega

theorem IsNumeral.isBlank_eq_false {s : List Char} {n : Nat} (h : IsNumeral s n) :
    ∀ c ∈ s, isBlank c = false := by
  cases h with
  | plain _ hds => exact fun c hc => isBlank_of_isDigit (hds c hc)
  | signed _ hds =>
    exact List.forall_mem_cons.mpr ⟨by decide, fun c hc => isBlank_of_isDigit (hds c hc)⟩

theorem trimStart_append {front s : List Char} (hfront : ∀ c ∈ front, isBlank c = true)
    (hs : ∀ c ∈ s.head?, isBlank c = false) : trimStart (front ++ s) = s :=
  dropWhile_stretch hfront hs

/-- A text without blanks is what trimming leaves of it, with blanks on either side of it. -/
theorem trim_append {front s back : List Char} (hfront : ∀ c ∈ front, isBlank c = true)
    (hs : ∀ c ∈ s, isBlank c = false) (hne : s ≠ []) (hback : ∀ c ∈ back, isBlank c = true) :
    trim (front ++ s ++ back) = s := by
  have hhead : ∀ c ∈ (s ++ back).head?, isBlank c = false := by
    rw [List.head?_append_of_ne_nil _ hne]
    exact fun c hc => hs c (List.mem_of_head? hc)
  have hlast : ∀ c ∈ s.reverse.head?, isBlank c = false := fun c hc =>
    hs c (List.mem_reverse.mp (List.mem_of_head? hc))
  have hblanks : ∀ c ∈ back.reverse, isBlank c = true := fun c hc =>
    hback c (List.mem_reverse.mp hc)
  rw [trim, trimEnd, List.append_assoc, trimStart_append hfront hhead, List.reverse_append,
    trimStart_append hblanks hlast, List.reverse_reverse]

/-- Trimming takes blanks from either end, and nothing else. -/
theorem exists_trim (s : List Char) : ∃ front back, s = front ++ trim s ++ back ∧
    (∀ c ∈ front, isBlank c = true) ∧ ∀ c ∈ back, isBlank c = true := by
  have hcut : ∀ t : List Char, t.takeWhile isBlank ++ trimStart t = t :=
    fun t => List.takeWhile_append_dropWhile
  refine ⟨s.takeWhile isBlank, ((trimStart s).reverse.takeWhile isBlank).reverse, ?_,
    fun c hc => List.mem_takeWhile_imp hc,
    fun c hc => List.mem_takeWhile_imp (List.mem_reverse.mp hc)⟩
  have hend : trim s ++ ((trimStart s).reverse.takeWhile isBlank).reverse = trimStart s := by
    rw [trim, trimEnd, ← List.reverse_append, hcut, List.reverse_reverse]
  rw [List.append_assoc, hend, hcut]

theorem isNumeral_trim_iff {s : List Char} {n : Nat} : IsNumeral (trim s) n ↔ IsField s n := by
  constructor
  · intro h
    obtain ⟨front, back, hs, hfront, hback⟩ := exists_trim s
    exact ⟨front, trim s, back, hs, hfront, hback, h⟩
  · rintro ⟨front, numeral, back, rfl, hfront, hback, h⟩
    have hne : numeral ≠ [] := by
      cases h with
      | plain hne => exact hne
      | signed => exact nofun
    rwa [trim_append hfront h.isBlank_eq_false hne hback]

/-- What a field is made of. -/
theorem IsField.of_mem {s : List Char} {n : Nat} (h : IsField s n) {c : Char} (hc : c ∈ s) :
    isBlank c = true ∨ c.isDigit = true ∨ c = '+' := by
  obtain ⟨front, numeral, back, rfl, hfront, hback, hnumeral⟩ := h
  rw [List.mem_append, List.mem_append] at hc
  rcases hc with (hc | hc) | hc
  · exact .inl (hfront c hc)
  · right
    cases hnumeral with
    | plain _ hds => exact .inl (hds c hc)
    | signed _ hds =>
      rcases List.mem_cons.mp hc with rfl | hc
      · exact .inr rfl
      · exact .inl (hds c hc)
  · exact .inl (hback c hc)

/-- A type of numbers up to a bound reads exactly the fields whose number is within it. -/
theorem map_readNumeral_trim_eq_ok {α : Type} {ofNat : Nat → α} {toNat : α → Nat} {bound : Nat}
    (hbound : ∀ a, toNat a ≤ bound) (hofNat : ∀ a, ofNat (toNat a) = a)
    (htoNat : ∀ k ≤ bound, toNat (ofNat k) = k) {s : List Char} {a : α} :
    (readNumeral bound (trim s)).map ofNat = .ok a ↔ IsField s (toNat a) := by
  rw [← isNumeral_trim_iff]
  constructor
  · intro h
    cases hread : readNumeral bound (trim s) with
    | error fault => rw [hread] at h; cases h
    | ok k =>
      rw [hread] at h
      obtain rfl := Except.ok.inj h
      obtain ⟨hnumeral, hle⟩ := readNumeral_eq_ok.mp hread
      rwa [htoNat k hle]
  · intro h
    rw [readNumeral_eq_ok.mpr ⟨h, hbound a⟩]
    exact congrArg Except.ok (hofNat a)

theorem readUInt32_trim_eq_ok {s : List Char} {n : UInt32} :
    readUInt32 (trim s) = .ok n ↔ IsField s n.toNat :=
  map_readNumeral_trim_eq_ok (fun n => Nat.le_sub_one_of_lt n.toNat_lt)
    (fun _ => UInt32.ofNat_toNat) fun _ hk =>
      UInt32.toNat_ofNat_of_lt' (Nat.lt_of_le_sub_one (by decide) hk)

theorem readUInt64_trim_eq_ok {s : List Char} {n : UInt64} :
    readUInt64 (trim s) = .ok n ↔ IsField s n.toNat :=
  map_readNumeral_trim_eq_ok (fun n => Nat.le_sub_one_of_lt n.toNat_lt)
    (fun _ => UInt64.ofNat_toNat) fun _ hk =>
      UInt64.toNat_ofNat_of_lt' (Nat.lt_of_le_sub_one (by decide) hk)

end Switchover.Text
