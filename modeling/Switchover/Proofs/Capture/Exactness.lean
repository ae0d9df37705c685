import Mathlib
import Switchover.Proofs.Capture.Copies

/-!
Where the counters of an examination suffice. The captures of an id are counted in 32 bits, one
capture at a time, and ids and packets in 64. Only the first of these counters can go over: it does
so at the capture that makes an id's captures as many as 32 bits have values, and then the id seems
not to have been captured at all. Every other number that is computed is bounded by the number of
packets sent.
-/
namespace Switchover

/-- A count that exceeds `n` goes beyond it at one place. -/
theorem exists_split_of_lt_countP {α : Type} {p : α → Bool} {l : List α} {n : Nat}
    (h : n < l.countP p) :
    ∃ before a after, l = before ++ a :: after ∧ p a ∧ before.countP p = n := by
  induction l generalizing n with
  | nil => exact absurd h (Nat.not_lt_zero n)
  | cons b l ih =>
    by_cases hb : p b
    · rw [List.countP_cons_of_pos hb] at h
      cases n with
      | zero => exact ⟨[], b, l, rfl, hb, rfl⟩
      | succ n =>
        obtain ⟨before, a, after, rfl, ha, hcount⟩ := ih (Nat.lt_of_succ_lt_succ h)
        exact ⟨b :: before, a, after, rfl, ha, by rw [List.countP_cons_of_pos hb, hcount]⟩
    · rw [List.countP_cons_of_neg hb] at h
      obtain ⟨before, a, after, rfl, ha, hcount⟩ := ih h
      exact ⟨b :: before, a, after, rfl, ha, by rw [List.countP_cons_of_neg hb, hcount]⟩

/-- Whether all numbers that an examination of a capture computes are those that it would compute
without bounds. -/
structure Delivery.Exact (sent : UInt64) (capture : List Observation) : Prop where
  /-- Each further capture of an id is counted. -/
  again : ∀ before o after, capture = before ++ o :: after →
    ∀ a ∈ Arrival.ofCapture sent before, a.id = o.id →
      (a.again o).copies.toNat = a.copies.toNat + 1
  received :
    (ofCapture sent capture).received.toNat = (Arrival.ofCapture sent capture).length
  /-- The id that would follow an arrival without an outage. -/
  next : ∀ a ∈ Arrival.ofCapture sent capture, (a.id + 1).toNat = a.id.toNat + 1
  /-- What is missing if an arrival is the last one. -/
  missing : ∀ a ∈ Arrival.ofCapture sent capture,
    a.id.toNat + 1 + (sent - 1 - a.id).toNat = sent.toNat
  excess : ∀ a ∈ Arrival.ofCapture sent capture, ∀ x, a.duplication? = some x →
    x.excess.toNat + 1 = a.copies.toNat

/-- The numbers of further copies that a delivery lists for an id. -/
def Delivery.excessOf (d : Delivery) (i : UInt64) : List UInt32 :=
  (d.duplications.filter (·.window.startId = i)).map (·.excess)

/-- What is listed of an id that was captured a number of times: the captures that a counter of 32
bits shows beyond one. -/
def Delivery.excessAfter (captures : Nat) : List UInt32 :=
  if 1 < UInt32.ofNat captures then [UInt32.ofNat captures - 1] else []

/-- This is the number of further captures, if the counter did not go over. -/
theorem Delivery.excessAfter_eq_singleton_iff {captures : Nat} {x : UInt32}
    (hfits : captures < UInt32.size) (hx : 1 ≤ x) :
    excessAfter captures = [x] ↔ captures = 1 + x.toNat := by
  have hone : (1 : UInt32).toNat = 1 := rfl
  have htoNat := UInt32.toNat_ofNat_of_lt' hfits
  rw [UInt32.le_iff_toNat_le, hone] at hx
  rw [excessAfter]
  split_ifs with hmany
  · have hsub : (UInt32.ofNat captures - 1).toNat = captures - 1 := by
      rw [UInt32.toNat_sub_of_le _ _ (UInt32.le_of_lt hmany), htoNat, hone]
    rw [UInt32.lt_iff_toNat_lt, htoNat, hone] at hmany
    rw [List.cons.injEq, eq_self, and_true, ← UInt32.toNat_inj, hsub]
    omega
  · rw [UInt32.lt_iff_toNat_lt, htoNat, hone] at hmany
    exact iff_of_false (by simp) (by omega)

section OfCapture
variable {sent : UInt64} {capture : List Observation} {i : UInt64}

namespace Arrival

theorem copies_eq {a : Arrival} (ha : a ∈ ofCapture sent capture) :
    a.copies = UInt32.ofNat (copiesIn capture a.id) := by
  rw [copies_gather (mem_ofCapture.mp ha).2, copiesIn, List.countP_eq_length_filter]

theorem toNat_copies_eq_mod {a : Arrival} (ha : a ∈ ofCapture sent capture) :
    a.copies.toNat = copiesIn capture a.id % UInt32.size := by
  rw [copies_eq ha]
  exact UInt32.toNat_ofNat'

end Arrival

namespace Delivery

/-- A capture that finds the counter of its id at its end is lost with all before it. -/
theorem exact_again_iff : (∀ before o after, capture = before ++ o :: after →
      ∀ a ∈ Arrival.ofCapture sent before, a.id = o.id →
        (a.again o).copies.toNat = a.copies.toNat + 1) ↔
    ∀ i < sent, copiesIn capture i < UInt32.size := by
  constructor
  · intro hagain i hi
    by_contra hmany
    have hlast : UInt32.size - 1 < copiesIn capture i := by
      rw [UInt32.size] at *
      omega
    obtain ⟨before, o, after, hcut, ho, hcount⟩ := exists_split_of_lt_countP hlast
    have ho : o.id = i := of_decide_eq_true ho
    have hbefore : copiesIn before i = UInt32.size - 1 := hcount
    have hcaptured : 0 < copiesIn before i := by
      rw [hbefore]
      decide
    obtain ⟨a, ha, rfl⟩ := Arrival.exists_mem_ofCapture.mpr ⟨hi, copiesIn_pos.mp hcaptured⟩
    have hfull : a.copies = UInt32.ofNat (UInt32.size - 1) := by
      rw [Arrival.copies_eq ha, hbefore]
    have hstep : (a.copies + 1).toNat = a.copies.toNat + 1 :=
      hagain before o after hcut a ha ho.symm
    rw [hfull] at hstep
    exact absurd hstep (by decide)
  · rintro hfew before o after rfl a ha hid
    have hlt := hfew a.id (Arrival.mem_ofCapture.mp ha).1
    rw [copiesIn, List.countP_append, List.countP_cons_of_pos (by simp [hid]), ← copiesIn] at hlt
    have hcount := Arrival.toNat_copies_eq_mod ha
    rw [Nat.mod_eq_of_lt (by omega)] at hcount
    have hfits : a.copies.toNat + 1 < UInt32.size := by
      rw [hcount]
      omega
    exact (UInt32.toNat_add ..).trans (Nat.mod_eq_of_lt hfits)

/-- An examination computes exactly, unless an id was captured as often as 32 bits have values. -/
theorem exact_iff : Exact sent capture ↔ ∀ i < sent, copiesIn capture i < UInt32.size := by
  have hlt : ∀ a ∈ Arrival.ofCapture sent capture, a.id < sent := fun a ha =>
    (Arrival.mem_ofCapture.mp ha).1
  refine ⟨fun h => exact_again_iff.mp h.again,
    fun hfew => ⟨exact_again_iff.mpr hfew, ?_, fun a ha => ?_, fun a ha => ?_, ?_⟩⟩
  · rw [toNat_received_ofCapture, ← Arrival.map_id_ofCapture, List.length_map]
  · exact toNat_succ_of_lt (hlt a ha)
  · have hnat := UInt64.lt_iff_toNat_lt.mp (hlt a ha)
    rw [toNat_pred_sub_of_lt (hlt a ha)]
    omega
  · exact fun a _ x hx => Arrival.toNat_excess hx

/-- A delivery lists an id once, with the copies that the counter has beyond one, or not at all. -/
theorem excessOf_ofCapture (hi : i < sent) :
    (ofCapture sent capture).excessOf i = excessAfter (copiesIn capture i) := by
  rw [excessAfter]
  split_ifs with hmany
  · have hcaptured : ∃ o ∈ capture, o.id = i := by
      refine copiesIn_pos.mp (Nat.pos_of_ne_zero fun hzero => ?_)
      rw [hzero] at hmany
      exact absurd hmany (by decide)
    obtain ⟨a, ha, rfl⟩ := Arrival.exists_mem_ofCapture.mpr ⟨hi, hcaptured⟩
    have hcopies := Arrival.copies_eq ha
    have hdup := Arrival.duplication?_eq_some_iff.mpr ⟨hcopies ▸ hmany, rfl⟩
    have hx := List.mem_filterMap.mpr ⟨a, ha, hdup⟩
    have hfilter : (ofCapture sent capture).duplications.filter (·.window.startId = a.id) =
        [⟨⟨a.id, a.id, a.first, a.last⟩, a.copies - 1⟩] := by
      refine eq_of_pairwise_lt (f := (·.window.startId)) (pairwise_duplications.filter _)
        (List.pairwise_singleton ..) fun y => ?_
      rw [List.mem_filter, List.mem_singleton, decide_eq_true_iff]
      constructor
      · rintro ⟨hy, hid⟩
        exact eq_of_startId_eq hy hx hid
      · rintro rfl
        exact ⟨hx, rfl⟩
    rw [excessOf, hfilter, List.map_singleton, hcopies]
  · rw [excessOf, List.map_eq_nil_iff, List.filter_eq_nil_iff]
    intro x hx hid
    obtain ⟨a, ha, hdup⟩ := List.mem_filterMap.mp hx
    obtain ⟨hlt, rfl⟩ := Arrival.duplication?_eq_some_iff.mp hdup
    have hid : a.id = i := of_decide_eq_true hid
    rw [Arrival.copies_eq ha, hid] at hlt
    exact hmany hlt

end Delivery

end OfCapture

end Switchover
