import Mathlib
import Switchover.Delivery.Capture
import Switchover.Proofs.Time

/-!
Arrivals of a capture. However the captures are ordered, the arrivals are listed by ascending id,
and the arrival of an id gathers exactly the captures of that id, in the order in which they came.
-/
namespace Switchover

namespace Arrival

/-- What the captures of one id make together, in the order in which they came. -/
def gather : List Observation → Option Arrival
  | [] => none
  | o :: rest => some (rest.foldl again (ofObservation o))

theorem gather_concat (l : List Observation) (o : Observation) :
    gather (l ++ [o]) = some (((gather l).map (·.again o)).getD (ofObservation o)) := by
  cases l with
  | nil => rfl
  | cons p l => simp [gather]

/-- Whether the arrivals are listed from the highest id down. -/
def Descending (l : List Arrival) : Prop :=
  l.Pairwise fun a b => b.id < a.id

theorem id_enter_mem {o : Observation} {l : List Arrival} :
    ∀ a ∈ enter o l, a.id = o.id ∨ ∃ b ∈ l, b.id = a.id := by
  induction l with
  | nil => simp [enter, ofObservation]
  | cons b l ih =>
    rw [enter]
    split_ifs with hlt heq
    · intro a ha
      rcases List.mem_cons.mp ha with rfl | ha
      · exact .inl rfl
      · exact .inr ⟨a, ha, rfl⟩
    · intro a ha
      rcases List.mem_cons.mp ha with rfl | ha
      · exact .inl heq
      · exact .inr ⟨a, List.mem_cons_of_mem _ ha, rfl⟩
    · intro a ha
      rcases List.mem_cons.mp ha with rfl | ha
      · exact .inr ⟨a, List.mem_cons_self .., rfl⟩
      · rcases ih a ha with h | ⟨c, hc, h⟩
        · exact .inl h
        · exact .inr ⟨c, List.mem_cons_of_mem _ hc, h⟩

theorem descending_enter {o : Observation} {l : List Arrival} (h : Descending l) :
    Descending (enter o l) := by
  induction l with
  | nil => exact List.pairwise_singleton ..
  | cons b l ih =>
    obtain ⟨hb, hl⟩ := List.pairwise_cons.mp h
    rw [enter]
    split_ifs with hlt heq
    · refine List.pairwise_cons.mpr ⟨fun a ha => ?_, h⟩
      rcases List.mem_cons.mp ha with rfl | ha
      · exact hlt
      · have := hb a ha
        simp only [ofObservation]
        grind
    · exact List.pairwise_cons.mpr ⟨hb, hl⟩
    · refine List.pairwise_cons.mpr ⟨fun a ha => ?_, ih hl⟩
      rcases id_enter_mem a ha with hid | ⟨c, hc, hid⟩
      · grind
      · rw [← hid]
        exact hb c hc

/-- Entering a capture changes the arrival of its id and no other one. -/
theorem find_enter {o : Observation} {l : List Arrival} (h : Descending l) (i : UInt64) :
    (enter o l).find? (·.id = i) =
      if o.id = i then some (((l.find? (·.id = i)).map (·.again o)).getD (ofObservation o))
      else l.find? (·.id = i) := by
  induction l with
  | nil => by_cases hi : o.id = i <;> simp [enter, ofObservation, hi]
  | cons b l ih =>
    obtain ⟨hb, hl⟩ := List.pairwise_cons.mp h
    rw [enter]
    by_cases hlt : b.id < o.id
    · rw [if_pos hlt]
      by_cases hi : o.id = i
      · -- the id is new, since all listed ids lie below it
        have hnone : (b :: l).find? (·.id = i) = none := by
          rw [List.find?_eq_none]
          intro a ha
          rcases List.mem_cons.mp ha with rfl | ha
          · grind
          · have := hb a ha
            grind
        rw [hnone]
        simp [ofObservation, hi]
      · simp [ofObservation, hi]
    rw [if_neg hlt]
    by_cases heq : b.id = o.id
    · rw [if_pos heq]
      by_cases hi : o.id = i <;> simp [again, heq, hi]
    · rw [if_neg heq, List.find?_cons, List.find?_cons, ih hl]
      by_cases hi : o.id = i
      · have hbi : b.id ≠ i := fun h => heq (h.trans hi.symm)
        simp [hi, hbi]
      · simp [hi]

theorem descending_foldl_enter (l : List Observation) :
    Descending (l.foldl (fun arrivals o => enter o arrivals) []) := by
  induction l using List.reverseRecOn with
  | nil => exact List.Pairwise.nil
  | append_singleton l o ih =>
    rw [List.foldl_append]
    exact descending_enter ih

theorem find_foldl_enter (l : List Observation) (i : UInt64) :
    (l.foldl (fun arrivals o => enter o arrivals) []).find? (·.id = i) =
      gather (l.filter (·.id = i)) := by
  induction l using List.reverseRecOn with
  | nil => rfl
  | append_singleton l o ih =>
    rw [List.foldl_append, List.foldl_cons, List.foldl_nil, find_enter (descending_foldl_enter l),
      ih, List.filter_append]
    by_cases hi : o.id = i
    · rw [if_pos hi, List.filter_cons_of_pos (by simpa using hi), List.filter_nil, gather_concat]
    · rw [if_neg hi, List.filter_cons_of_neg (by simpa using hi), List.filter_nil, List.append_nil]

/-- Among arrivals of different ids, an id leads to its arrival. -/
theorem find_eq_some_iff {l : List Arrival} (h : Descending l) {a : Arrival} :
    l.find? (·.id = a.id) = some a ↔ a ∈ l := by
  refine ⟨List.mem_of_find?_eq_some, fun ha => ?_⟩
  induction l with
  | nil => cases ha
  | cons b l ih =>
    obtain ⟨hb, hl⟩ := List.pairwise_cons.mp h
    rcases List.mem_cons.mp ha with rfl | ha
    · simp
    · have hne : b.id ≠ a.id := by
        have := hb a ha
        grind
      rw [List.find?_cons_of_neg (by simpa using hne), ih hl ha]

theorem duplication?_eq_some_iff {a : Arrival} {x : Duplication} : a.duplication? = some x ↔
    1 < a.copies ∧ x = ⟨⟨a.id, a.id, a.first, a.last⟩, a.copies - 1⟩ := by
  rw [duplication?, Option.ite_none_right_eq_some, Option.some.injEq, eq_comm (a := x)]

/-- All copies but one are in excess. -/
theorem toNat_excess {a : Arrival} {x : Duplication} (h : a.duplication? = some x) :
    x.excess.toNat + 1 = a.copies.toNat := by
  obtain ⟨hmany, rfl⟩ := duplication?_eq_some_iff.mp h
  have hone : (1 : UInt32).toNat = 1 := rfl
  have hlt := UInt32.lt_iff_toNat_lt.mp hmany
  rw [UInt32.toNat_sub_of_le _ _ (UInt32.le_of_lt hmany)]
  omega

/-! ### The captures of one id -/

theorem exists_gather {l : List Observation} (h : l ≠ []) : ∃ a, gather l = some a := by
  cases l with
  | nil => exact absurd rfl h
  | cons o l => exact ⟨_, rfl⟩

theorem id_gather {i : UInt64} {a : Arrival} {l : List Observation}
    (h : gather (l.filter (·.id = i)) = some a) : a.id = i := by
  induction l using List.reverseRecOn generalizing a with
  | nil => cases h
  | append_singleton l o ih =>
    rw [List.filter_append] at h
    by_cases hi : o.id = i
    · rw [List.filter_cons_of_pos (by simpa using hi), List.filter_nil, gather_concat] at h
      cases hg : gather (l.filter (·.id = i)) with
      | none =>
        rw [hg] at h
        obtain rfl := Option.some.inj h
        exact hi
      | some b =>
        rw [hg] at h
        obtain rfl := Option.some.inj h
        have hb : b.id = i := ih hg
        exact hb
    · rw [List.filter_cons_of_neg (by simpa using hi), List.filter_nil, List.append_nil] at h
      exact ih h

/-- Whether `first` and `last` of an arrival are the extreme times of some captures by value. -/
structure Bounds (a : Arrival) (l : List Observation) : Prop where
  first_mem : ∃ o ∈ l, o.time = a.first
  first_le : ∀ o ∈ l, a.first ≤ o.time
  last_mem : ∃ o ∈ l, o.time = a.last
  le_last : ∀ o ∈ l, o.time ≤ a.last

theorem bounds_ofObservation {o : Observation} (ho : o.time.isNaN = false) :
    (ofObservation o).Bounds [o] := by
  have hle := time_le_refl ho
  exact ⟨⟨o, by simp, rfl⟩, by simpa [ofObservation] using hle, ⟨o, by simp, rfl⟩,
    by simpa [ofObservation] using hle⟩

/-- One more capture moves the bounds no further than to its own time. -/
theorem bounds_again {a : Arrival} {l : List Observation} {o : Observation} (h : a.Bounds l)
    (hl : ∀ p ∈ l, p.time.isNaN = false) (ho : o.time.isNaN = false) :
    (a.again o).Bounds (l ++ [o]) := by
  obtain ⟨⟨p, hp, hfirst⟩, hle, ⟨q, hq, hlast⟩, hge⟩ := h
  obtain ⟨hold, hnew⟩ := earlier_le (hfirst ▸ hl p hp) ho
  obtain ⟨hold', hnew'⟩ := le_later (hlast ▸ hl q hq) ho
  refine ⟨?_, fun x hx => ?_, ?_, fun x hx => ?_⟩
  · rcases earlier_eq_or a.first o.time with heq | heq
    · exact ⟨p, by simp [hp], hfirst.trans heq.symm⟩
    · exact ⟨o, by simp, heq.symm⟩
  · rcases List.mem_append.mp hx with hx | hx
    · exact time_le_trans hold (hle x hx)
    · obtain rfl := List.mem_singleton.mp hx
      exact hnew
  · rcases later_eq_or a.last o.time with heq | heq
    · exact ⟨q, by simp [hq], hlast.trans heq.symm⟩
    · exact ⟨o, by simp, heq.symm⟩
  · rcases List.mem_append.mp hx with hx | hx
    · exact time_le_trans (hge x hx) hold'
    · obtain rfl := List.mem_singleton.mp hx
      exact hnew'

theorem bounds_gather {a : Arrival} {l : List Observation} (h : gather l = some a)
    (hl : ∀ o ∈ l, o.time.isNaN = false) : a.Bounds l := by
  induction l using List.reverseRecOn generalizing a with
  | nil => cases h
  | append_singleton l o ih =>
    have hl' : ∀ p ∈ l, p.time.isNaN = false := fun p hp => hl p (List.mem_append_left _ hp)
    have ho : o.time.isNaN = false := hl o (by simp)
    rw [gather_concat] at h
    cases hg : gather l with
    | none =>
      rw [hg] at h
      obtain rfl := Option.some.inj h
      have hnil : l = [] := by
        by_contra hne
        obtain ⟨b, hb⟩ := exists_gather hne
        rw [hg] at hb
        cases hb
      subst hnil
      exact bounds_ofObservation ho
    | some b =>
      rw [hg] at h
      obtain rfl := Option.some.inj h
      exact bounds_again (ih hg hl') hl' ho

/-- Whether `first` and `last` of an arrival are the extreme times of some captures. -/
structure Spans (a : Arrival) (l : List Observation) : Prop where
  first_mem : ∃ o ∈ l, o.time = a.first
  first_le : ∀ o ∈ l, timeRank a.first ≤ timeRank o.time
  last_mem : ∃ o ∈ l, o.time = a.last
  le_last : ∀ o ∈ l, timeRank o.time ≤ timeRank a.last

/-- Plain times have one order, by value and by rank. -/
theorem spans_gather {a : Arrival} {l : List Observation} (h : gather l = some a)
    (hl : ∀ o ∈ l, Plain o.time) : a.Spans l := by
  obtain ⟨⟨p, hp, hfirst⟩, hle, ⟨q, hq, hlast⟩, hge⟩ := bounds_gather h fun o ho => (hl o ho).1
  refine ⟨⟨p, hp, hfirst⟩, fun o ho => ?_, ⟨q, hq, hlast⟩, fun o ho => ?_⟩
  · exact (le_iff_timeRank (hfirst ▸ hl p hp) (hl o ho)).mp (hle o ho)
  · exact (le_iff_timeRank (hl o ho) (hlast ▸ hl q hq)).mp (hge o ho)

/-! ### The arrivals of a capture -/

section Capture
variable {sent : UInt64} {capture : List Observation}

/-- The arrivals are listed by ascending id, each id once. -/
theorem pairwise_ofCapture : (ofCapture sent capture).Pairwise (·.id < ·.id) :=
  List.pairwise_reverse.mpr (descending_foldl_enter _)

/-- Each arrival gathers the captures of its id. -/
theorem mem_ofCapture {a : Arrival} : a ∈ ofCapture sent capture ↔
    a.id < sent ∧ gather (capture.filter (·.id = a.id)) = some a := by
  rw [ofCapture, List.mem_reverse, ← find_eq_some_iff (descending_foldl_enter _), find_foldl_enter,
    List.filter_filter]
  by_cases hlt : a.id < sent
  · have hfilter : capture.filter (fun o => decide (o.id = a.id) && decide (o.id < sent)) =
        capture.filter (·.id = a.id) := by
      refine List.filter_congr fun o _ => ?_
      by_cases ho : o.id = a.id <;> simp [ho, hlt]
    rw [hfilter]
    simp [hlt]
  · have hfilter : capture.filter (fun o => decide (o.id = a.id) && decide (o.id < sent)) = [] := by
      rw [List.filter_eq_nil_iff]
      intro o _
      by_cases ho : o.id = a.id <;> simp [ho, hlt]
    rw [hfilter]
    simp [hlt, gather]

/-- The ids that arrived are those captured, apart from other traffic. -/
theorem exists_mem_ofCapture {i : UInt64} : (∃ a ∈ ofCapture sent capture, a.id = i) ↔
    i < sent ∧ ∃ o ∈ capture, o.id = i := by
  constructor
  · rintro ⟨a, ha, rfl⟩
    obtain ⟨hlt, hg⟩ := mem_ofCapture.mp ha
    refine ⟨hlt, ?_⟩
    by_contra hnone
    push Not at hnone
    rw [List.filter_eq_nil_iff.mpr fun o ho => by simpa using hnone o ho] at hg
    cases hg
  · rintro ⟨hlt, o, ho, hi⟩
    have hne : capture.filter (·.id = i) ≠ [] :=
      List.ne_nil_of_mem (List.mem_filter.mpr ⟨ho, by simpa using hi⟩)
    obtain ⟨a, hg⟩ := exists_gather hne
    obtain rfl := id_gather hg
    exact ⟨a, mem_ofCapture.mpr ⟨hlt, hg⟩, rfl⟩

/-- Where all times are numbers, an arrival is bounded by the captures of its id. -/
theorem bounds_ofCapture {a : Arrival} (ha : a ∈ ofCapture sent capture)
    (h : ∀ o ∈ capture, o.time.isNaN = false) : a.Bounds (capture.filter (·.id = a.id)) :=
  bounds_gather (mem_ofCapture.mp ha).2 fun o ho => h o (List.mem_filter.mp ho).1

/-- Where all times are plain, an arrival spans the captures of its id. -/
theorem spans_ofCapture {a : Arrival} (ha : a ∈ ofCapture sent capture)
    (h : ∀ o ∈ capture, Plain o.time) : a.Spans (capture.filter (·.id = a.id)) :=
  spans_gather (mem_ofCapture.mp ha).2 fun o ho => h o (List.mem_filter.mp ho).1

end Capture

end Arrival

end Switchover
