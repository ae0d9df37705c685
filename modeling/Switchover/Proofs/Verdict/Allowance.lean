import Mathlib
import Switchover.Proofs.Text.Numeral
import Switchover.Proofs.Text.Quoted
import Switchover.Verdict.Thresholds

/-!
Allowances as texts. A text spells an allowance if it has one or two fields between its commas and
each of them is a number within 32 bits, with blanks around it. Any other text is refused with a
complaint that quotes it as it stands, so no other text is complained about in the same words. What
is displayed of an allowance spells that allowance.
-/
namespace Switchover

open Text (IsField isNumeral_toDigits isNumeral_trim_iff quoted quoted_injective readUInt32
  readUInt32_trim_eq_ok)

namespace DuplicationAllowance

/-- Whether the fields of a text spell an allowance: the bursts, and the copies of one packet if
there is a second field. -/
inductive Spells : List (List Char) → DuplicationAllowance → Prop where
  | bursts {field : List Char} {n : UInt32} (h : IsField field n.toNat) :
      Spells [field] (.bursts n)
  | burstsAndCopies {first second : List Char} {n m : UInt32} (hfirst : IsField first n.toNat)
      (hsecond : IsField second m.toNat) : Spells [first, second] (.burstsAndCopies n m)

/-! ### Fields -/

theorem field_eq_some_iff {field : List Char} {n : UInt32} :
    (readUInt32 (Text.trim field)).toOption = some n ↔ IsField field n.toNat := by
  rw [← readUInt32_trim_eq_ok]
  cases readUInt32 (Text.trim field) <;> simp [Except.toOption]

/-- Exactly the texts that spell an allowance are read, and as that allowance. -/
theorem ofText?_eq_some_iff {s : String} {a : DuplicationAllowance} :
    ofText? s = some a ↔ Spells (s.toList.splitOn ',') a := by
  rw [ofText?, parts]
  split
  · next field hfields =>
    rw [hfields, Option.map_eq_some_iff]
    constructor
    · rintro ⟨n, hn, rfl⟩
      exact .bursts (field_eq_some_iff.mp hn)
    · rintro ⟨h⟩
      exact ⟨_, field_eq_some_iff.mpr h, rfl⟩
  · next first second hfields =>
    rw [hfields]
    constructor
    · intro h
      obtain ⟨n, hn, h⟩ := Option.bind_eq_some_iff.mp h
      obtain ⟨m, hm, h⟩ := Option.bind_eq_some_iff.mp h
      obtain rfl := Option.some.inj h
      exact .burstsAndCopies (field_eq_some_iff.mp hn) (field_eq_some_iff.mp hm)
    · rintro ⟨⟩
      next n m hfirst hsecond =>
      dsimp only
      rw [field_eq_some_iff.mpr hfirst, field_eq_some_iff.mpr hsecond]
      rfl
  · next hone htwo =>
    refine iff_of_false nofun fun h => ?_
    generalize hfields : s.toList.splitOn ',' = fields at hone htwo h
    cases h with
    | bursts => exact hone _ rfl
    | burstsAndCopies => exact htwo _ _ rfl

theorem ofText_eq_ok_iff {s : String} {a : DuplicationAllowance} :
    ofText s = .ok a ↔ Spells (s.toList.splitOn ',') a := by
  rw [← ofText?_eq_some_iff, ofText]
  cases ofText? s <;> simp

theorem ofText_eq_error_iff {s e : String} :
    ofText s = .error e ↔ (¬ ∃ a, Spells (s.toList.splitOn ',') a) ∧ complaint s = e := by
  simp only [← ofText?_eq_some_iff]
  rw [ofText]
  cases ofText? s <;> simp

/-! ### Display -/

theorem toList_toString (n : Nat) : (toString n).toList = Nat.toDigits 10 n :=
  Nat.toList_repr

/-- What is displayed of an allowance spells that allowance. -/
theorem spells_display (a : DuplicationAllowance) : Spells (a.display.toList.splitOn ',') a := by
  have hcomma : ∀ n : Nat, ',' ∉ Nat.toDigits 10 n := fun n hmem =>
    absurd (Nat.isDigit_of_mem_toDigits (by decide) (by decide) hmem) (by decide)
  cases a with
  | bursts n =>
    rw [display, toList_toString, List.splitOn_eq_singleton (hcomma _)]
    exact .bursts (isNumeral_toDigits _).isField
  | burstsAndCopies n m =>
    have hchars : (display (burstsAndCopies n m)).toList =
        Nat.toDigits 10 n.toNat ++ ',' :: Nat.toDigits 10 m.toNat := by
      rw [display, String.toList_append, String.toList_append, toList_toString, toList_toString,
        List.append_assoc]
      rfl
    rw [hchars, List.splitOn_append_cons_self_of_not_mem (hcomma _),
      List.splitOn_eq_singleton (hcomma _)]
    exact .burstsAndCopies (isNumeral_toDigits _).isField (isNumeral_toDigits _).isField

/-- A text is read as an allowance if its fields spell that one, and refused if they spell none. The
complaint quotes the text that it is about. What is displayed of an allowance reads back as it. -/
theorem ofText_spells :
    (∀ s a, ofText s = .ok a ↔ Spells (s.toList.splitOn ',') a) ∧
    (∀ s e, ofText s = .error e ↔ (¬ ∃ a, Spells (s.toList.splitOn ',') a) ∧
      "invalid allowed duplication " ++ quoted s ++ ": expected N or N,M" = e) ∧
    Function.Injective quoted ∧
    ∀ a, ofText (display a) = .ok a :=
  ⟨fun _ _ => ofText_eq_ok_iff, fun _ _ => ofText_eq_error_iff, quoted_injective,
    fun a => ofText_eq_ok_iff.mpr (spells_display a)⟩

example : ofText "\u2003+04,\t3\n" = .ok (.burstsAndCopies 4 3) := by cbv

end DuplicationAllowance

end Switchover
