import Mathlib

/-!
Stretches of a text. What is taken from a text while its characters are of one kind is the stretch
in front, if what follows begins with a character of another kind or not at all. So where a
character separates two parts, and the first part has none of it, the parts can be read off again.
-/
namespace Switchover.Text

/-- Characters of different kinds are different. -/
theorem ne_of_kinds {α : Type} {p : α → Bool} {a b : α} (ha : p a = true) (hb : p b = false) :
    a ≠ b := by
  rintro rfl
  rw [ha] at hb
  cases hb

section Stretch
variable {α : Type} {p : α → Bool} {front rest : List α} (hfront : ∀ a ∈ front, p a = true)
  (hrest : ∀ a ∈ rest.head?, p a = false)
include hfront hrest

theorem takeWhile_stretch : (front ++ rest).takeWhile p = front := by
  rw [List.takeWhile_append_of_pos hfront]
  cases rest with
  | nil => rw [List.takeWhile_nil, List.append_nil]
  | cons a rest =>
    rw [List.takeWhile_cons_of_neg (Bool.eq_false_iff.mp (hrest a rfl)), List.append_nil]

theorem dropWhile_stretch : (front ++ rest).dropWhile p = rest := by
  rw [List.dropWhile_append_of_pos hfront]
  cases rest with
  | nil => rfl
  | cons a rest => exact List.dropWhile_cons_of_neg (Bool.eq_false_iff.mp (hrest a rfl))

end Stretch

/-- A text is split in one way at the first of its separators. -/
theorem append_separator_inj {c : Char} {s t x y : List Char} (hs : c ∉ s) (ht : c ∉ t) :
    s ++ c :: x = t ++ c :: y ↔ s = t ∧ x = y := by
  have hfront {s x : List Char} (hs : c ∉ s) : (s ++ c :: x).takeWhile (· != c) = s :=
    takeWhile_stretch (fun d hd => bne_iff_ne.mpr fun heq => hs (heq ▸ hd)) (by simp)
  constructor
  · intro h
    obtain rfl : s = t := by rw [← hfront hs, h, hfront ht]
    exact ⟨rfl, (List.cons.inj (List.append_cancel_left h)).2⟩
  · rintro ⟨rfl, rfl⟩
    rfl

/-- A text is split in one way at the last of its separators. -/
theorem append_last_separator_inj {c : Char} {s t x y : List Char} (hx : c ∉ x) (hy : c ∉ y) :
    s ++ c :: x = t ++ c :: y ↔ s = t ∧ x = y := by
  have hback := append_separator_inj (x := s.reverse) (y := t.reverse)
    (fun h => hx (List.mem_reverse.mp h)) fun h => hy (List.mem_reverse.mp h)
  rw [← List.reverse_inj, List.reverse_append, List.reverse_append, List.reverse_cons,
    List.reverse_cons, List.append_assoc, List.append_assoc, List.singleton_append,
    List.singleton_append, hback, List.reverse_inj, List.reverse_inj, and_comm]

end Switchover.Text
