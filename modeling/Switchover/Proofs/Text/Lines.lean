import Mathlib

/-!
The lines of a text. Texts that are written behind one another, each behind a line break, come out
as the lines of all of them. So each of them is one line exactly if none has a line break of its
own.
-/
namespace Switchover.Text

/-- The lines of a text, which has line breaks between them. -/
def lines (s : String) : List String :=
  (s.toList.splitOn '\n').map String.ofList

theorem lines_of_notMem {s : String} (h : '\n' ∉ s.toList) : lines s = [s] := by
  rw [lines, List.splitOn_eq_singleton h, List.map_singleton, String.ofList_toList]

theorem length_lines_pos (s : String) : 0 < (lines s).length := by
  rw [lines, List.length_map]
  exact List.length_pos_of_ne_nil (List.splitOn_ne_nil '\n' s.toList)

/-- A line break makes two lines of a text at least. -/
theorem one_lt_length_lines {s : String} (h : '\n' ∈ s.toList) : 1 < (lines s).length := by
  obtain ⟨front, back, hs⟩ := List.append_of_mem h
  have hfront := List.length_pos_of_ne_nil (List.splitOn_ne_nil '\n' front)
  have hback := List.length_pos_of_ne_nil (List.splitOn_ne_nil '\n' back)
  rw [lines, List.length_map, hs, List.splitOn_append_cons_self, List.length_append]
  omega

/-- Texts behind line breaks: an empty line, and the lines of each of them. -/
theorem lines_join (ss : List String) :
    lines (String.join (ss.map ("\n" ++ ·))) = "" :: ss.flatMap lines := by
  -- from the last text on, as the break in front of it is where the others end
  induction ss using List.reverseRecOn with
  | nil => rfl
  | append_singleton ss s ih =>
    have hchars : (String.join ((ss ++ [s]).map ("\n" ++ ·))).toList =
        (String.join (ss.map ("\n" ++ ·))).toList ++ '\n' :: s.toList := by simp
    rw [lines, hchars, List.splitOn_append_cons_self, List.map_append]
    change lines _ ++ lines s = _
    rw [ih, List.flatMap_append, List.flatMap_singleton, List.cons_append]

theorem length_le_flatMap_lines (ss : List String) : ss.length ≤ (ss.flatMap lines).length := by
  induction ss with
  | nil => exact Nat.le_refl _
  | cons s ss ih =>
    have hs := length_lines_pos s
    rw [List.flatMap_cons, List.length_append, List.length_cons]
    omega

/-- Texts are their own lines exactly if there is no line break in any of them. -/
theorem flatMap_lines_eq_iff {ss : List String} :
    ss.flatMap lines = ss ↔ ∀ s ∈ ss, '\n' ∉ s.toList := by
  induction ss with
  | nil => simp
  | cons s ss ih =>
    rw [List.flatMap_cons, List.forall_mem_cons, ← ih]
    constructor
    · intro h
      have hlength := congrArg List.length h
      have hrest := length_le_flatMap_lines ss
      rw [List.length_append, List.length_cons] at hlength
      have hs : '\n' ∉ s.toList := by
        intro hmem
        have hmore := one_lt_length_lines hmem
        omega
      rw [lines_of_notMem hs] at h
      exact ⟨hs, (List.cons.inj h).2⟩
    · rintro ⟨hs, hss⟩
      rw [lines_of_notMem hs, hss, List.singleton_append]

end Switchover.Text
