import Mathlib
import Switchover.Proofs.Decimal.Digits
import Switchover.Proofs.Text.Stretches
import Switchover.Proofs.Toml.Strings

/-!
Values in TOML texts, as a printer writes them. A whole number is tried as a date, a time and a
number with a fraction before it is read as itself; its digits are none of these, since a line break
follows where one of them has a hyphen, a colon, a point or an exponent. It is read as it is if it
fits into 64 bits with a sign.
-/
namespace Switchover.Toml

open Decimal (Leads leads_toDigits)
open Text (ne_of_kinds)

/-- The node that a written value is read as. -/
def Literal.node : Literal → Node
  | nat n => .int n
  | text s => .text s

/-- Whether a value can be read back: a whole number must not be too large. -/
def Literal.Fits : Literal → Prop
  | nat n => n < 2 ^ 63
  | text _ => True

instance : ∀ v : Literal, Decidable v.Fits
  | .nat n => inferInstanceAs (Decidable (n < 2 ^ 63))
  | .text _ => inferInstanceAs (Decidable True)

/-! ### Whole numbers -/

section Digits

variable {ds rest : List Char}

theorem readDigits_append (hne : ds ≠ []) (hds : ∀ c ∈ ds, c.isDigit = true) :
    readDigits Char.isDigit (ds ++ '\n' :: rest) = some (ds, '\n' :: rest) := by
  induction ds with
  | nil => exact absurd rfl hne
  | cons c ds ih =>
    obtain ⟨hc, hds⟩ := List.forall_mem_cons.mp hds
    cases ds with
    | nil => simp [readDigits, hc]
    | cons d ds =>
      have hd := hds d List.mem_cons_self
      have hne := ne_of_kinds (b := '_') hd (by decide)
      have hread := ih (List.cons_ne_nil _ _) hds
      rw [List.cons_append] at hread
      simp [readDigits, hc, hd, hne, hread]

theorem readWhole_append (h : Leads ds) :
    readWhole (ds ++ '\n' :: rest) = some (ds, '\n' :: rest) := by
  obtain ⟨d, ds, rfl, -⟩ := h.exists_cons
  by_cases hzero : d = '0'
  · subst hzero
    rw [h.alone ds rfl]
    rfl
  · rw [List.cons_append, readWhole]
    · exact readDigits_append h.ne_nil h.isDigit
    · exact fun s hs => hzero (List.cons.inj hs).1

/-- Behind the digits that a field takes stand the other digits and the end of the line. -/
theorem readField_append {count least greatest n : Nat} {r : List Char}
    (hds : ∀ c ∈ ds, c.isDigit = true)
    (h : readField count least greatest (ds ++ '\n' :: rest) = some (n, r)) :
    ∃ more, r = more ++ '\n' :: rest ∧ ∀ c ∈ more, c.isDigit = true := by
  rw [readField] at h
  split_ifs at h with htake
  obtain ⟨-, rfl⟩ := Prod.mk.inj (Option.some.inj h)
  have hshort : count ≤ ds.length := by
    -- otherwise the field would take the line break, which is no digit
    by_contra hlong
    have hmem : '\n' ∈ (ds ++ '\n' :: rest).take count := by
      obtain ⟨k, hk⟩ := Nat.exists_eq_add_of_lt (Nat.lt_of_not_le hlong)
      rw [hk, Nat.add_assoc, List.take_length_add_append, List.take_succ_cons]
      exact List.mem_append_right _ List.mem_cons_self
    cases List.all_eq_true.mp htake.2.1 _ hmem
  refine ⟨ds.drop count, List.drop_append_of_le_length hshort, fun c hc => ?_⟩
  exact hds c (List.mem_of_mem_drop hc)

theorem expect_eq_none {c : Char} (hc : c.isDigit = false) (hline : c ≠ '\n') {more : List Char}
    (hmore : ∀ c ∈ more, c.isDigit = true) : expect c (more ++ '\n' :: rest) = none := by
  cases more with
  | nil => exact if_neg (Ne.symm hline)
  | cons d more => exact if_neg (ne_of_kinds (hmore d List.mem_cons_self) hc)

theorem readMoment_eq_none (hds : ∀ c ∈ ds, c.isDigit = true) :
    readMoment (ds ++ '\n' :: rest) = none := by
  have hdate : readDate (ds ++ '\n' :: rest) = none := by
    rw [readDate]
    cases hfield : readField 4 0 9999 (ds ++ '\n' :: rest) with
    | none => rfl
    | some x =>
      obtain ⟨more, hr, hmore⟩ := readField_append hds hfield
      simp [hr, expect_eq_none (c := '-') (by decide) (by decide) hmore]
  have htime : readTime (ds ++ '\n' :: rest) = none := by
    rw [readTime]
    cases hfield : readField 2 0 23 (ds ++ '\n' :: rest) with
    | none => rfl
    | some x =>
      obtain ⟨more, hr, hmore⟩ := readField_append hds hfield
      simp [hr, expect_eq_none (c := ':') (by decide) (by decide) hmore]
  rw [readMoment, hdate, htime]
  rfl

theorem readSign_digit {d : Char} (hd : d.isDigit = true) (s : List Char) :
    readSign (d :: s) = (false, d :: s) := by
  rw [readSign]
  · exact fun s hs => ne_of_kinds hd (by decide) (List.cons.inj hs).1
  · exact fun s hs => ne_of_kinds hd (by decide) (List.cons.inj hs).1

theorem readReal_eq_none (h : Leads ds) : readReal (ds ++ '\n' :: rest) = none := by
  have hwhole : readWhole (ds ++ '\n' :: rest) = some (ds, '\n' :: rest) := readWhole_append h
  obtain ⟨d, ds, rfl, hd⟩ := h.exists_cons
  have hi := ne_of_kinds (b := 'i') hd (by decide)
  have hn := ne_of_kinds (b := 'n') hd (by decide)
  rw [List.cons_append] at hwhole ⊢
  simp [readReal, readSign_digit hd, hi, hn, hwhole, readExponent]

theorem readWholeNumber_append (h : Leads ds) :
    readWholeNumber (ds ++ '\n' :: rest) = some ((Text.digitsValue ds : Int), '\n' :: rest) := by
  have hwhole : readWhole (ds ++ '\n' :: rest) = some (ds, '\n' :: rest) := readWhole_append h
  obtain ⟨d, ds, rfl, hd⟩ := h.exists_cons
  have hbase {c : Char} (hc : c ≠ '\n') (s : List Char) :
      d :: (ds ++ '\n' :: rest) ≠ '0' :: c :: s := by
    intro heq
    obtain ⟨rfl, hds⟩ := List.cons.inj heq
    rw [h.alone ds rfl, List.nil_append] at hds
    exact hc (List.cons.inj hds).1.symm
  rw [List.cons_append] at hwhole ⊢
  rw [readWholeNumber, readSign_digit hd]
  · dsimp only
    rw [hwhole]
    rfl
  · exact hbase (by decide)
  · exact hbase (by decide)
  · exact hbase (by decide)

end Digits

theorem readNumber_toDigits {n : Nat} (h : n < 2 ^ 63) (rest : List Char) :
    readNumber (Nat.toDigits 10 n ++ '\n' :: rest) = some (.int n, '\n' :: rest) := by
  have hds := leads_toDigits n
  have hvalue : Text.digitsValue (Nat.toDigits 10 n) = n := Nat.ofDigitChars_ten_toDigits
  have hint : readInt (Nat.toDigits 10 n ++ '\n' :: rest) = some (.int n, '\n' :: rest) := by
    have hfits : Int64.minValue.toInt ≤ (n : Int) ∧ (n : Int) ≤ Int64.maxValue.toInt := by
      rw [Int64.toInt_minValue, Int64.toInt_maxValue]
      omega
    simp [readInt, readWholeNumber_append hds, hvalue, hfits]
  rw [readNumber, readMoment_eq_none hds.isDigit, readReal_eq_none hds, hint]

/-! ### Values -/

theorem exists_quote_of_readText {s : List Char} {x : String × List Char}
    (h : readText s = some x) : (∃ s', s = '"' :: s') ∨ ∃ s', s = '\'' :: s' := by
  rw [readText.eq_def] at h
  split at h
  · exact .inl ⟨_, rfl⟩
  · exact .inr ⟨_, rfl⟩
  · exact .inl ⟨_, rfl⟩
  · exact .inr ⟨_, rfl⟩
  · cases h

theorem readValue_of_readText {room depth : Nat} {s r : List Char} {t : String}
    (h : readText s = some (t, r)) : readValue (room + 1) depth s = some (.text t, r) := by
  rcases exists_quote_of_readText h with ⟨s, rfl⟩ | ⟨s, rfl⟩ <;> rw [readValue, h] <;> rfl

theorem readValue_of_readNumber {room depth : Nat} {d : Char} {s r : List Char} {node : Node}
    (hd : d.isDigit = true) (h : readNumber (d :: s) = some (node, r)) :
    readValue (room + 1) depth (d :: s) = some (node, r) := by
  have hne {c : Char} (hc : c.isDigit = false) (t : List Char) : d :: s ≠ c :: t :=
    fun heq => ne_of_kinds hd hc (List.cons.inj heq).1
  rw [readValue, h] <;> intro r <;> exact hne (by decide) _

theorem Literal.toList_render_nat (n : Nat) :
    (Literal.nat n).render.toList = Nat.toDigits 10 n := by
  simp [Literal.render]

/-- A value begins with a digit or a quote. -/
theorem Literal.exists_head (v : Literal) :
    ∃ c r, v.render.toList = c :: r ∧ isSpace c = false := by
  cases v with
  | nat n =>
    obtain ⟨d, ds, hdigits, hd⟩ := (leads_toDigits n).exists_cons
    rw [toList_render_nat, hdigits]
    exact ⟨d, ds, rfl, by
      simp [isSpace, ne_of_kinds (b := ' ') hd, ne_of_kinds (b := '\t') hd]⟩
  | text s =>
    have hread : readText ((textLiteral s).toList ++ []) = some (s, []) :=
      readText_textLiteral s (by simp) (by simp)
    rw [List.append_nil] at hread
    rcases exists_quote_of_readText hread with ⟨r, hr⟩ | ⟨r, hr⟩
    · exact ⟨_, r, hr, rfl⟩
    · exact ⟨_, r, hr, rfl⟩

/-- A value is read back as it is, at the end of its line. -/
theorem readValue_render {v : Literal} (h : v.Fits) (room depth : Nat) (rest : List Char) :
    readValue (room + 1) depth (v.render.toList ++ '\n' :: rest) =
      some (v.node, '\n' :: rest) := by
  cases v with
  | nat n =>
    obtain ⟨d, ds, hdigits, hd⟩ := (leads_toDigits n).exists_cons
    have hread := readNumber_toDigits h rest
    rw [Literal.toList_render_nat]
    rw [hdigits] at hread ⊢
    exact readValue_of_readNumber hd hread
  | text s =>
    exact readValue_of_readText (readText_textLiteral s (by simp) (by simp))

theorem skipSpace_render (v : Literal) (rest : List Char) :
    skipSpace (v.render.toList ++ rest) = v.render.toList ++ rest := by
  obtain ⟨c, r, hr, hc⟩ := v.exists_head
  rw [hr]
  simp [skipSpace, hc]

end Switchover.Toml
