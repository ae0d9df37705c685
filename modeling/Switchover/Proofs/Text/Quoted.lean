import Mathlib
import Switchover.Proofs.Text.Stretches
import Switchover.Text.Numeral
import Switchover.Text.Quoted

/-!
Quoted texts can be told apart. No character is shown as the beginning of what another one is shown
as, so the characters of a text can be read off its quotation one by one. What is said about a text
in quotes is said about no other text.
-/
namespace Switchover.Text

/-! ### Hexadecimal numbers -/

/-- The number that hexadecimal digits spell. -/
def hexadecimalValue (ds : List Char) : Nat :=
  ds.foldl (fun n c => 16 * n + (hexValue? c).getD 0) 0

theorem hexValue?_digitChar : ∀ d < 16, hexValue? d.digitChar = some d := by
  decide

theorem hexadecimalValue_hexadecimal (n : Nat) : hexadecimalValue (hexadecimal n) = n := by
  induction n using Nat.strong_induction_on with
  | _ n ih =>
    rw [hexadecimal, Nat.toDigits_eq_if (by decide)]
    split_ifs with hlt
    · simp [hexadecimalValue, hexValue?_digitChar n hlt]
    · have hfront := ih (n / 16) (by omega)
      rw [hexadecimalValue, hexadecimal] at hfront
      rw [hexadecimalValue, List.foldl_append, hfront]
      simp only [List.foldl_cons, List.foldl_nil, hexValue?_digitChar _ (Nat.mod_lt n (by decide)),
        Option.getD_some]
      exact Nat.div_add_mod n 16

theorem ne_brace_of_mem_hexadecimal {n : Nat} : ∀ c ∈ hexadecimal n, c ≠ '}' := by
  have hdigit : ∀ d < 16, Nat.digitChar d ≠ '}' := by decide
  induction n using Nat.strong_induction_on with
  | _ n ih =>
    rw [hexadecimal, Nat.toDigits_eq_if (by decide)]
    split_ifs with hlt
    · exact List.forall_mem_singleton.mpr (hdigit n hlt)
    · refine List.forall_mem_append.mpr ⟨ih (n / 16) (by omega), ?_⟩
      exact List.forall_mem_singleton.mpr (hdigit _ (Nat.mod_lt n (by decide)))

/-- A number in front of a closing brace is as long as it can be. -/
theorem hexadecimal_append_inj {m n : Nat} {x y : List Char}
    (h : hexadecimal m ++ '}' :: x = hexadecimal n ++ '}' :: y) : m = n ∧ x = y := by
  have hbrace (k : Nat) : '}' ∉ hexadecimal k := fun hc => ne_brace_of_mem_hexadecimal _ hc rfl
  obtain ⟨hdigits, hrest⟩ := (append_separator_inj (hbrace m) (hbrace n)).mp h
  have hnumber : m = n := by
    rw [← hexadecimalValue_hexadecimal m, hdigits, hexadecimalValue_hexadecimal]
  exact ⟨hnumber, hrest⟩

/-! ### Characters and texts -/

/-- The character that a letter behind a backslash stands for. -/
def meantBy (letter : Char) : Char :=
  if letter = 'n' then '\n'
  else if letter = 'r' then '\r'
  else if letter = 't' then '\t'
  else if letter = '0' then '\x00'
  else letter

/-- A character is shown by a letter behind a backslash, by its number, or as it is. -/
theorem quotedChar_cases (c : Char) :
    (∃ letter, quotedChar c = ['\\', letter] ∧ letter ≠ 'u' ∧ c = meantBy letter) ∨
    quotedChar c = '\\' :: 'u' :: '{' :: (hexadecimal c.toNat ++ ['}']) ∨
    quotedChar c = [c] ∧ c ≠ '\\' := by
  rw [quotedChar]
  split_ifs with hquote hslash hline hreturn htab hnull hhidden
  · exact .inl ⟨'"', rfl, by decide, hquote⟩
  · exact .inl ⟨'\\', rfl, by decide, hslash⟩
  · exact .inl ⟨'n', rfl, by decide, hline⟩
  · exact .inl ⟨'r', rfl, by decide, hreturn⟩
  · exact .inl ⟨'t', rfl, by decide, htab⟩
  · exact .inl ⟨'0', rfl, by decide, hnull⟩
  · exact .inr (.inl rfl)
  · exact .inr (.inr ⟨rfl, hslash⟩)

/-- What a character is shown as tells where it ends and which character it is. -/
theorem quotedChar_append_inj {c d : Char} {x y : List Char}
    (h : quotedChar c ++ x = quotedChar d ++ y) : c = d ∧ x = y := by
  rcases quotedChar_cases c with ⟨l, hc, hl, rfl⟩ | hc | ⟨hc, hslash⟩ <;>
    rcases quotedChar_cases d with ⟨l', hd, hl', rfl⟩ | hd | ⟨hd, hslash'⟩ <;>
    rw [hc, hd] at h
  · obtain ⟨-, h⟩ := List.cons.inj h
    obtain ⟨rfl, rfl⟩ := List.cons.inj h
    exact ⟨rfl, rfl⟩
  · exact absurd (List.cons.inj (List.cons.inj h).2).1 hl
  · exact absurd (List.cons.inj h).1.symm hslash'
  · exact absurd (List.cons.inj (List.cons.inj h).2).1.symm hl'
  · simp only [List.cons_append, List.append_assoc, List.cons.injEq, true_and] at h
    obtain ⟨hnumber, hrest⟩ := hexadecimal_append_inj h
    exact ⟨Char.toNat_inj.mp hnumber, hrest⟩
  · exact absurd (List.cons.inj h).1.symm hslash'
  · exact absurd (List.cons.inj h).1 hslash
  · exact absurd (List.cons.inj h).1 hslash
  · exact List.cons.inj h

theorem flatMap_quotedChar_inj {s t : List Char}
    (h : s.flatMap quotedChar = t.flatMap quotedChar) : s = t := by
  have hne : ∀ c (rest : List Char), quotedChar c ++ rest ≠ [] := by
    intro c rest
    rcases quotedChar_cases c with ⟨l, hc, -⟩ | hc | ⟨hc, -⟩ <;> rw [hc] <;> nofun
  induction s generalizing t with
  | nil =>
    cases t with
    | nil => rfl
    | cons d t => exact absurd h.symm (hne d _)
  | cons c s ih =>
    cases t with
    | nil => exact absurd h (hne c _)
    | cons d t =>
      obtain ⟨rfl, hrest⟩ := quotedChar_append_inj h
      rw [ih hrest]

/-- Different texts have different quotations. -/
theorem quoted_injective : Function.Injective quoted := by
  intro s t h
  have hchars := List.cons.inj (String.ofList_injective h) |>.2
  exact String.toList_injective (flatMap_quotedChar_inj (List.append_cancel_right hchars))

end Switchover.Text
