import Mathlib
import Switchover.Json.Printer
import Switchover.Json.Outline
import Switchover.Proofs.Decimal.Digits
import Switchover.Proofs.Text.Stretches

/-!
Numbers in JSON texts. Every number that is written has a spelling, and a spelling is read to its
end and no further: what follows a number in a text is no part of one. A whole number within 64 bits
is read as itself.
-/
namespace Switchover.Json

open Decimal (Leads Significant)

/-! ### Reading a spelling -/

/-- Whether a text does not go on like a number. -/
def Stops (s : List Char) : Prop :=
  ∀ c ∈ s.head?, c.isDigit = false ∧ c ≠ '.' ∧ c ≠ 'e' ∧ c ≠ 'E'

/-- An exponent behind its letter, with a sign. -/
def exponentChars : Option (Bool × List Char) → List Char
  | none => []
  | some (negative, ds) => 'e' :: (if negative then '-' else '+') :: ds

/-- The characters of a spelling. -/
def Spelling.chars (n : Spelling) : List Char :=
  (if n.minus then ['-'] else []) ++ n.whole ++ (if n.places = [] then [] else '.' :: n.places) ++
    exponentChars n.exponent

/-- Whether a spelling is made of digits where it has to. -/
structure Spelling.IsProper (n : Spelling) : Prop where
  whole : Leads n.whole
  places : ∀ c ∈ n.places, c.isDigit = true
  exponent : ∀ x ∈ n.exponent, x.2 ≠ [] ∧ ∀ c ∈ x.2, c.isDigit = true

theorem digits?_append {ds rest : List Char} (hne : ds ≠ []) (hds : ∀ c ∈ ds, c.isDigit = true)
    (hrest : ∀ c ∈ rest.head?, c.isDigit = false) : digits? (ds ++ rest) = some (ds, rest) := by
  obtain ⟨d, ds, rfl⟩ := List.exists_cons_of_ne_nil hne
  rw [digits?, Text.takeWhile_stretch hds hrest, Text.dropWhile_stretch hds hrest]

theorem readWhole_append {ds rest : List Char} (hds : Leads ds)
    (hrest : ∀ c ∈ rest.head?, c.isDigit = false) : readWhole (ds ++ rest) = some (ds, rest) := by
  rw [readWhole, digits?_append hds.ne_nil hds.isDigit hrest]
  split
  · next d cs _ h =>
    obtain ⟨rfl, rfl⟩ := Prod.mk.inj (Option.some.inj h)
    cases hds.alone _ rfl
  · rfl

theorem readPlaces_append {ds rest : List Char} (hds : ∀ c ∈ ds, c.isDigit = true)
    (hrest : ∀ c ∈ rest.head?, c.isDigit = false ∧ c ≠ '.') :
    readPlaces ((if ds = [] then [] else '.' :: ds) ++ rest) = some (ds, rest) := by
  by_cases hne : ds = []
  · rw [if_pos hne, hne, List.nil_append]
    rw [readPlaces.eq_def]
    split
    · exact absurd rfl (hrest '.' rfl).2
    · rfl
  · rw [if_neg hne, List.cons_append, readPlaces]
    exact digits?_append hne hds fun c hc => (hrest c hc).1

theorem readExponent_append {exponent : Option (Bool × List Char)} {rest : List Char}
    (hexponent : ∀ x ∈ exponent, x.2 ≠ [] ∧ ∀ c ∈ x.2, c.isDigit = true) (hrest : Stops rest) :
    readExponent (exponentChars exponent ++ rest) = some (exponent, rest) := by
  cases exponent with
  | none =>
    cases rest with
    | nil => rfl
    | cons c cs =>
      obtain ⟨-, -, he, hE⟩ := hrest c rfl
      simp [exponentChars, readExponent, he, hE]
  | some x =>
    obtain ⟨negative, ds⟩ := x
    obtain ⟨hne, hds⟩ := hexponent _ rfl
    have hdigits := digits?_append hne hds fun c hc => (hrest c hc).1
    cases negative <;> simp [exponentChars, readExponent, hdigits]

theorem head?_exponentChars (exponent : Option (Bool × List Char)) {rest : List Char}
    (hrest : Stops rest) :
    ∀ c ∈ (exponentChars exponent ++ rest).head?, c.isDigit = false ∧ c ≠ '.' := by
  cases exponent with
  | none => exact fun c hc => ⟨(hrest c hc).1, (hrest c hc).2.1⟩
  | some x =>
    rintro c ⟨⟩
    decide

theorem append_ne_minus {ds s r : List Char} (hds : Leads ds) : ds ++ s ≠ '-' :: r := by
  intro h
  obtain ⟨d, ds, rfl, hd⟩ := hds.exists_cons
  obtain ⟨rfl, -⟩ := List.cons.inj h
  cases hd

/-- A spelling is read as it stands, up to where a number cannot go on. -/
theorem readSpelling_chars {n : Spelling} (hn : n.IsProper) {rest : List Char}
    (hrest : Stops rest) : readSpelling (n.chars ++ rest) = some (n, rest) := by
  have hbehind := head?_exponentChars n.exponent hrest
  have hhead : ∀ c ∈ ((if n.places = [] then [] else '.' :: n.places) ++
      (exponentChars n.exponent ++ rest)).head?, c.isDigit = false := by
    split_ifs
    · exact fun c hc => (hbehind c hc).1
    · rintro c ⟨⟩
      decide
  have hwhole := readWhole_append hn.whole hhead
  have hplaces := readPlaces_append hn.places hbehind
  have hexponent := readExponent_append hn.exponent hrest
  obtain ⟨minus, whole, places, exponent⟩ := n
  dsimp only at hwhole hplaces hexponent
  cases minus with
  | true => simp [Spelling.chars, readSpelling, hwhole, hplaces, hexponent]
  | false =>
    rw [Spelling.chars, if_neg Bool.false_ne_true, List.nil_append, List.append_assoc,
      List.append_assoc, readSpelling]
    · simp only [hwhole, hplaces, hexponent, Option.bind_eq_bind, Option.bind_some]
      rfl
    · exact fun r => append_ne_minus hn.whole

/-! ### Whole numbers -/

/-- Digits whose number is within the bound are all taken. -/
theorem gather_eq {bound n : Nat} {ds : List Char} (h : Nat.ofDigitChars 10 ds n ≤ bound) :
    gather bound n ds = (Nat.ofDigitChars 10 ds n, []) := by
  induction ds generalizing n with
  | nil => rw [gather, Nat.ofDigitChars_nil]
  | cons c cs ih =>
    rw [Nat.ofDigitChars_cons] at h ⊢
    have hle : 10 * n + (c.toNat - 48) ≤ bound := by
      refine le_trans ?_ h
      rw [Nat.ofDigitChars_eq_ofDigitChars_zero]
      exact (Nat.le_mul_of_pos_left _ (Nat.pow_pos (by decide))).trans (Nat.le_add_right ..)
    rw [gather, if_pos hle]
    exact ih h

/-- The spelling of a whole number. -/
def Spelling.ofInt (n : Int) : Spelling :=
  ⟨n < 0, Nat.toDigits 10 n.natAbs, [], none⟩

theorem isProper_ofInt (n : Int) : (Spelling.ofInt n).IsProper :=
  ⟨Decimal.leads_toDigits _, by simp [Spelling.ofInt], by simp [Spelling.ofInt]⟩

theorem chars_ofInt (n : Int) : (Spelling.ofInt n).chars = intLiteral n := by
  simp [Spelling.chars, Spelling.ofInt, exponentChars, intLiteral]

/-- A natural number of 64 bits is read as itself. -/
theorem value_ofInt {n : Nat} (h : n < UInt64.size) :
    (Spelling.ofInt n).value = some (.natural n) := by
  have hwhole : gather (UInt64.size - 1) 0 (Nat.toDigits 10 (Int.natAbs n)) = (n, []) := by
    have hdigits := Nat.ofDigitChars_ten_toDigits (n := n)
    rw [Int.natAbs_natCast, gather_eq (by omega), hdigits]
  have hsign : decide ((n : Int) < 0) = false := decide_eq_false (by omega)
  simp only [Spelling.value, Spelling.ofInt, hwhole, hsign]
  rfl

/-! ### Numbers with places -/

/-- Whether a text is a number, with and without a minus in front. -/
def Spelled (text : List Char) : Prop :=
  ∀ minus : Bool, ∃ n : Spelling, n.IsProper ∧ n.chars = (if minus then ['-'] else []) ++ text

theorem spelled_chars {n : Spelling} (hn : n.IsProper) (hminus : n.minus = false) :
    Spelled n.chars := by
  intro minus
  refine ⟨{ n with minus }, ⟨hn.whole, hn.places, hn.exponent⟩, ?_⟩
  simp [Spelling.chars, hminus]

theorem spelled_point {whole places : List Char} (hwhole : Leads whole) (hne : places ≠ [])
    (hplaces : ∀ c ∈ places, c.isDigit = true) : Spelled (whole ++ '.' :: places) := by
  have h := spelled_chars (n := ⟨false, whole, places, none⟩) ⟨hwhole, hplaces, nofun⟩ rfl
  simpa [Spelling.chars, hne, exponentChars] using h

theorem isDigit_of_replicate {n : Nat} {c : Char} (hc : c ∈ List.replicate n '0') :
    c.isDigit = true := by
  rw [List.eq_of_mem_replicate hc]
  decide

/-- Digits with a point among them, behind them or in front of them. -/
theorem spelled_positional {ds : List Char} (hds : Significant ds) (point : Int) :
    Spelled (Decimal.positionalText true ds point) := by
  have hzero : Leads ['0'] := Decimal.leads_toDigits 0
  rw [Decimal.positionalText, if_pos rfl]
  dsimp only
  split_ifs with hfront hinside
  · -- in front of them
    have hplaces : ∀ c ∈ List.replicate (-point).toNat '0' ++ ds, c.isDigit = true := fun c hc =>
      (List.mem_append.mp hc).elim isDigit_of_replicate (hds.isDigit c)
    simpa using spelled_point hzero (by simp [hds.ne_nil]) hplaces
  · have htake : Significant (ds.take point.toNat) := by
      refine hds.of_prefix (List.take_prefix ..) ?_
      simp only [ne_eq, List.take_eq_nil_iff, hds.ne_nil, or_false]
      omega
    have hdrop : ds.drop point.toNat ≠ [] := by simpa using hinside
    simpa using spelled_point htake.leads hdrop fun c hc =>
      hds.isDigit c (List.mem_of_mem_drop hc)
  · -- behind them, with zeros up to the point
    have hzeros : ∀ c ∈ List.replicate (point.toNat - ds.length) '0', c.isDigit = true :=
      fun c => isDigit_of_replicate
    simpa using spelled_point (hds.append hzeros).leads (List.cons_ne_nil '0' []) fun c hc =>
      hzero.isDigit c hc

/-- Digits with a point behind the first one, and an exponent. -/
theorem spelled_scientific {ds : List Char} (hds : Significant ds) (point : Int) :
    Spelled (Decimal.scientificText true ds point) := by
  obtain ⟨d, ds, rfl⟩ := List.exists_cons_of_ne_nil hds.ne_nil
  have hwhole : Significant [d] := hds.of_prefix ⟨ds, rfl⟩ (List.cons_ne_nil d [])
  have hdigits := Decimal.leads_toDigits (point - 1).natAbs
  have hproper : Spelling.IsProper
      ⟨false, [d], ds, some (point - 1 < 0, Nat.toDigits 10 (point - 1).natAbs)⟩ :=
    ⟨hwhole.leads, fun c hc => hds.isDigit c (List.mem_cons_of_mem _ hc), by
      rintro x ⟨⟩
      exact ⟨hdigits.ne_nil, hdigits.isDigit⟩⟩
  have htext : Decimal.scientificText true (d :: ds) point = Spelling.chars
      ⟨false, [d], ds, some (point - 1 < 0, Nat.toDigits 10 (point - 1).natAbs)⟩ := by
    cases ds <;>
      by_cases hpoint : point - 1 < 0 <;>
        simp [Decimal.scientificText, Decimal.exponentText, Spelling.chars, exponentChars, hpoint]
  rw [htext]
  exact spelled_chars hproper rfl

/-- Every finite number has a spelling. -/
theorem exists_spelling_real {x : Float} {parts : Decimal.Binary}
    (h : Decimal.Class.of x = .finite parts) :
    ∃ n : Spelling, n.IsProper ∧ n.chars = realLiteral x := by
  have hq := Decimal.minExponent_le h
  obtain ⟨minus, m, q⟩ := parts
  have hmagnitude : Spelled (Decimal.interchange.magnitude m q) := by
    rw [Decimal.Layout.magnitude]
    by_cases hm : m = 0
    · rw [if_pos hm]
      exact spelled_point (Decimal.leads_toDigits 0) (List.cons_ne_nil '0' []) fun c hc =>
        (Decimal.leads_toDigits 0).isDigit c hc
    · have hds := Decimal.significant_shortest Decimal.interchange.tie (Nat.pos_of_ne_zero hm) hq
      rw [if_neg hm]
      dsimp only
      split_ifs
      · exact spelled_positional hds _
      · exact spelled_scientific hds _
  rw [realLiteral, h]
  simp only [Decimal.Layout.format, h, String.toList_ofList]
  exact hmagnitude minus

end Switchover.Json
