import Mathlib
import Switchover.Endpoint.Map

/-!
Looking up endpoints. Two names tie in the natural order only if they are the same, so a map holds
one value for each name, and what is looked up is what was inserted last under that very name.
-/
namespace Switchover

theorem compareOfLessAndEq_chars {a b : List Char} : compareOfLessAndEq a b = .eq ↔ a = b := by
  rw [compareOfLessAndEq]
  constructor
  · intro h
    split_ifs at h with hlt heq
    exact heq
  · rintro rfl
    rw [if_neg (List.lt_irrefl a), if_pos rfl]

/-! ### Ties of the natural order -/

theorem compareRuns_self (x : List Char) : compareRuns x x = .eq := by
  rw [compareRuns, compare_eq_iff_eq.mpr rfl]
  exact compareOfLessAndEq_chars.mpr rfl

theorem compareNatural_self (x : List Char) : compareNatural x x = .eq := by
  induction hn : x.length using Nat.strong_induction_on generalizing x with
  | _ n ih =>
    cases x with
    | nil => rw [compareNatural]
    | cons c x =>
      rw [compareNatural, if_pos rfl]
      split_ifs with hdigit
      · rw [compareRuns_self]
        have hle := (List.dropWhile_sublist (l := x) Char.isDigit).length_le
        exact ih _ (by rw [← hn, List.length_cons]; omega) _ rfl
      · exact ih _ (by rw [← hn, List.length_cons]; omega) _ rfl

namespace Address

theorem order_self (a : Address) : a.order a = .eq := by
  cases a <;> exact compare_eq_iff_eq.mpr rfl

end Address

namespace Endpoint

/-- The spelling decides in the end, and it tells any two names apart. -/
theorem order_eq_iff {a b : Endpoint} : a.order b = .eq ↔ a = b := by
  have hname : compareOfLessAndEq a.name.toList b.name.toList = .eq ↔ a = b := by
    rw [compareOfLessAndEq_chars, String.toList_inj]
    cases a; cases b; simp
  constructor
  · intro h
    rw [order] at h
    split at h
    · exact hname.mp (Ordering.then_eq_eq.mp h).2
    · cases h
    · cases h
    · exact hname.mp (Ordering.then_eq_eq.mp h).2
  · rintro rfl
    rw [order]
    split
    · next x y hx hy =>
      obtain rfl := Option.some.inj (hx.symm.trans hy)
      exact Ordering.then_eq_eq.mpr ⟨x.order_self, hname.mpr rfl⟩
    · next hx hy => rw [hx] at hy; cases hy
    · next hx hy => rw [hx] at hy; cases hy
    · exact Ordering.then_eq_eq.mpr ⟨compareNatural_self _, hname.mpr rfl⟩

theorem ne_of_order_lt {a b : Endpoint} (h : a.order b = .lt) : a ≠ b := by
  rintro rfl
  rw [order_eq_iff.mpr rfl] at h
  cases h

end Endpoint

/-! ### Looking up in a map -/

namespace EndpointMap
variable {α β : Type}

theorem find_cons (e k : Endpoint) (v : α) (l : List (Endpoint × α)) :
    find e ((k, v) :: l) = if e = k then some v else find e l := by
  rw [find]
  exact if_congr Endpoint.order_eq_iff rfl rfl

theorem find_insertEntry (e k : Endpoint) (v : α) (l : List (Endpoint × α)) :
    find k (insertEntry e v l) = if k = e then some v else find k l := by
  induction l with
  | nil => rw [insertEntry, find_cons]
  | cons entry l ih =>
    obtain ⟨j, w⟩ := entry
    rw [insertEntry]
    split
    · rw [find_cons]
    · next heq =>
      obtain rfl := Endpoint.order_eq_iff.mp heq
      rw [find_cons, find_cons]
      split_ifs <;> rfl
    · next hgt =>
      have hne : e ≠ j := fun h => by
        rw [Endpoint.order_eq_iff.mpr h] at hgt
        cases hgt
      rw [find_cons, find_cons, ih]
      by_cases hk : k = j
      · rw [if_pos hk, if_neg (hk ▸ hne.symm), if_pos hk]
      · rw [if_neg hk, if_neg hk]

/-- Inserting a value changes what is looked up under its name, and nothing else. -/
theorem get?_insert (m : EndpointMap α) (e k : Endpoint) (v : α) :
    (m.insert e v).get? k = if k = e then some v else m.get? k :=
  find_insertEntry e k v m.entries

/-- A map that lists what `f` makes of some endpoints holds that for each of them. -/
theorem get?_ofList_map (f : Endpoint → α) (es : List Endpoint) (e : Endpoint) :
    (ofList (es.map fun e => (e, f e))).get? e = if e ∈ es then some (f e) else none := by
  induction es using List.reverseRecOn with
  | nil => rfl
  | append_singleton es k ih =>
    rw [List.map_append, ofList, List.foldl_append, ← ofList, List.map_singleton, List.foldl_cons,
      List.foldl_nil, get?_insert, ih]
    by_cases hk : e = k
    · simp [hk]
    · simp [hk]

/-- What is looked up is one of the entries. -/
theorem mem_of_get? {m : EndpointMap α} {e : Endpoint} {v : α} (h : m.get? e = some v) :
    (e, v) ∈ m.entries := by
  obtain ⟨l⟩ := m
  rw [get?] at h
  induction l with
  | nil => cases h
  | cons entry l ih =>
    obtain ⟨k, w⟩ := entry
    rw [find_cons] at h
    split_ifs at h with hk
    · obtain rfl := Option.some.inj h
      exact hk ▸ List.mem_cons_self ..
    · exact List.mem_cons_of_mem _ (ih h)

end EndpointMap

end Switchover
