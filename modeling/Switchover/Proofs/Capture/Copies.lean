import Mathlib
import Switchover.Proofs.Capture.Tally

/-!
The copies in a capture. An id that was captured more than once has one duplication, which spans the
times of all its captures and counts them but for one. So the ids received and the copies in excess
add up to the captures of the packets sent: each of them counts once.
-/
namespace Switchover

/-- Whether a duplication is made of all captures of its id, of which there are several. -/
structure Duplication.Gathers (x : Duplication) (capture : List Observation) : Prop where
  endId_eq : x.window.endId = x.window.startId
  two_le : 2 ≤ copiesIn capture x.window.startId
  excess_eq : x.excess.toNat = copiesIn capture x.window.startId - 1
  startTime_mem : ∃ o ∈ capture, o.id = x.window.startId ∧ o.time = x.window.startTime
  startTime_le : ∀ o ∈ capture, o.id = x.window.startId → x.window.startTime ≤ o.time
  endTime_mem : ∃ o ∈ capture, o.id = x.window.startId ∧ o.time = x.window.endTime
  le_endTime : ∀ o ∈ capture, o.id = x.window.startId → o.time ≤ x.window.endTime

/-- Whether a delivery lists the ids that were captured more than once, in their order and each of
them once, and counts every capture of a packet sent as a packet received or a copy. -/
structure Delivery.CountsCopies (d : Delivery) (sent : UInt64) (capture : List Observation) :
    Prop where
  ascending : d.duplications.Pairwise (·.window.startId < ·.window.startId)
  listed : ∀ i < sent, 2 ≤ copiesIn capture i → ∃! x, x ∈ d.duplications ∧ x.window.startId = i
  gathers : ∀ x ∈ d.duplications, x.window.startId < sent ∧ x.Gathers capture
  total : d.received.toNat + (d.duplications.map (·.excess.toNat)).sum =
    capture.countP (·.id < sent)

namespace Arrival

/-- The copies of some arrivals are one for each of them and those in excess. -/
theorem length_add_sum_excess {l : List Arrival} (h : ∀ a ∈ l, 1 ≤ a.copies.toNat) :
    l.length + ((l.filterMap duplication?).map (·.excess.toNat)).sum =
      (l.map (·.copies.toNat)).sum := by
  induction l with
  | nil => rfl
  | cons a l ih =>
    obtain ⟨ha, hl⟩ := List.forall_mem_cons.mp h
    have hrest := ih hl
    rw [List.length_cons, List.map_cons, List.sum_cons]
    cases hdup : a.duplication? with
    | some x =>
      have hexcess := toNat_excess hdup
      rw [List.filterMap_cons_some hdup, List.map_cons, List.sum_cons]
      omega
    | none =>
      have hone : (1 : UInt32).toNat = 1 := rfl
      have hfew : ¬ 1 < a.copies := fun hmany => by
        rw [duplication?_eq_some_iff.mpr ⟨hmany, rfl⟩] at hdup
        cases hdup
      rw [UInt32.lt_iff_toNat_lt] at hfew
      rw [List.filterMap_cons_none hdup]
      omega

section OfCapture
variable {sent : UInt64} {capture : List Observation}

theorem copiesIn_eq_count (capture : List Observation) (i : UInt64) :
    copiesIn capture i = (capture.map (·.id)).count i := by
  rw [copiesIn, List.count, List.countP_map]
  exact List.countP_congr fun o _ => by simp

/-- Each capture of a packet sent is one of the captures of one arrival. -/
theorem sum_copiesIn :
    ((ofCapture sent capture).map fun a => copiesIn capture a.id).sum =
      capture.countP (·.id < sent) := by
  have hids : ((ofCapture sent capture).map (·.id)).Perm
      ((capture.map (·.id)).dedup.filter (· < sent)) := by
    refine (List.perm_ext_iff_of_nodup
      (nodup_of_pairwise_lt (List.pairwise_map.mpr pairwise_ofCapture))
      ((List.nodup_dedup _).filter _)).mpr fun i => ?_
    rw [List.mem_map, exists_mem_ofCapture, List.mem_filter, List.mem_dedup, List.mem_map,
      decide_eq_true_iff, and_comm]
  calc ((ofCapture sent capture).map fun a => copiesIn capture a.id).sum
      = (((ofCapture sent capture).map (·.id)).map ((capture.map (·.id)).count ·)).sum := by
        simp only [copiesIn_eq_count, List.map_map, Function.comp_def]
    _ = (((capture.map (·.id)).dedup.filter (· < sent)).map
          ((capture.map (·.id)).count ·)).sum := (hids.map _).sum_eq
    _ = (capture.map (·.id)).countP (· < sent) := List.sum_map_count_dedup_filter_eq_countP _ _
    _ = capture.countP (·.id < sent) := List.countP_map

end OfCapture

end Arrival

namespace Delivery
variable {sent : UInt64} {capture : List Observation}

theorem pairwise_duplications :
    (ofCapture sent capture).duplications.Pairwise (·.window.startId < ·.window.startId) := by
  refine List.pairwise_filterMap.mpr (Arrival.pairwise_ofCapture.imp fun hlt x hx y hy => ?_)
  obtain ⟨-, rfl⟩ := Arrival.duplication?_eq_some_iff.mp hx
  obtain ⟨-, rfl⟩ := Arrival.duplication?_eq_some_iff.mp hy
  exact hlt

/-- No id is listed twice. -/
theorem eq_of_startId_eq {x y : Duplication} (hx : x ∈ (ofCapture sent capture).duplications)
    (hy : y ∈ (ofCapture sent capture).duplications) (h : x.window.startId = y.window.startId) :
    x = y := by
  refine eq_of_pairwise (R := fun x y => x.window.startId = y.window.startId) ?_ hx hy h
  exact pairwise_duplications.imp fun hlt => ⟨UInt64.ne_of_lt hlt, (UInt64.ne_of_lt hlt).symm⟩

section Countable
variable (hcopies : ∀ i < sent, copiesIn capture i < UInt32.size)
include hcopies

theorem exists_mem_duplications {i : UInt64} (hi : i < sent) (hmany : 2 ≤ copiesIn capture i) :
    ∃ x ∈ (ofCapture sent capture).duplications, x.window.startId = i := by
  have hcaptured : ∃ o ∈ capture, o.id = i := copiesIn_pos.mp (by omega)
  obtain ⟨a, ha, rfl⟩ := Arrival.exists_mem_ofCapture.mpr ⟨hi, hcaptured⟩
  have hlt : 1 < a.copies := by
    rw [UInt32.lt_iff_toNat_lt, Arrival.toNat_copies hcopies ha]
    exact hmany
  have hdup := Arrival.duplication?_eq_some_iff.mpr ⟨hlt, rfl⟩
  exact ⟨_, List.mem_filterMap.mpr ⟨a, ha, hdup⟩, rfl⟩

theorem gathers_of_mem_duplications (htimes : ∀ o ∈ capture, o.time.isNaN = false)
    {x : Duplication} (hx : x ∈ (ofCapture sent capture).duplications) :
    x.window.startId < sent ∧ x.Gathers capture := by
  obtain ⟨a, ha, hdup⟩ := List.mem_filterMap.mp hx
  have hexcess := Arrival.toNat_excess hdup
  obtain ⟨hmany, rfl⟩ := Arrival.duplication?_eq_some_iff.mp hdup
  rw [UInt32.lt_iff_toNat_lt, Arrival.toNat_copies hcopies ha] at hmany
  rw [Arrival.toNat_copies hcopies ha] at hexcess
  have hof : ∀ {o : Observation}, o ∈ capture.filter (·.id = a.id) ↔ o ∈ capture ∧ o.id = a.id := by
    simp
  obtain ⟨⟨o, ho, hfirst⟩, hle, ⟨p, hp, hlast⟩, hge⟩ := Arrival.bounds_ofCapture ha htimes
  obtain ⟨ho, hoid⟩ := hof.mp ho
  obtain ⟨hp, hpid⟩ := hof.mp hp
  exact ⟨(Arrival.mem_ofCapture.mp ha).1, rfl, hmany, Nat.eq_sub_of_add_eq hexcess,
    ⟨o, ho, hoid, hfirst⟩, fun q hq hqid => hle q (hof.mpr ⟨hq, hqid⟩),
    ⟨p, hp, hpid, hlast⟩, fun q hq hqid => hge q (hof.mpr ⟨hq, hqid⟩)⟩

theorem received_add_sum_excess : (ofCapture sent capture).received.toNat +
    ((ofCapture sent capture).duplications.map (·.excess.toNat)).sum =
      capture.countP (·.id < sent) := by
  have hcount : ∀ a ∈ Arrival.ofCapture sent capture, a.copies.toNat = copiesIn capture a.id :=
    fun a ha => Arrival.toNat_copies hcopies ha
  have hpos : ∀ a ∈ Arrival.ofCapture sent capture, 1 ≤ a.copies.toNat := fun a ha => by
    rw [hcount a ha]
    exact copiesIn_pos.mpr (Arrival.exists_mem_ofCapture.mp ⟨a, ha, rfl⟩).2
  rw [toNat_received_ofCapture, ← Arrival.map_id_ofCapture, List.length_map,
    ← Arrival.sum_copiesIn, ← List.map_congr_left hcount]
  exact Arrival.length_add_sum_excess hpos

end Countable

/-- Where all times are numbers and no id was captured too often to be counted, each id captured
more than once has one duplication, with all its captures, and every capture of a packet sent is
counted once. -/
theorem countsCopies_ofCapture (sent : UInt64) (capture : List Observation)
    (htimes : ∀ o ∈ capture, o.time.isNaN = false)
    (hcopies : ∀ i < sent, copiesIn capture i < UInt32.size) :
    (ofCapture sent capture).CountsCopies sent capture where
  ascending := pairwise_duplications
  listed i hi hmany := by
    obtain ⟨x, hx, hid⟩ := exists_mem_duplications hcopies hi hmany
    exact ⟨x, ⟨hx, hid⟩, fun y hy => eq_of_startId_eq hy.1 hx (hy.2.trans hid.symm)⟩
  gathers x hx := gathers_of_mem_duplications hcopies htimes hx
  total := received_add_sum_excess hcopies

/-- Two ids were captured again, one of them twice and in part before, and so was one of other
traffic. -/
theorem countsCopies_ofCapture_again :
    let capture : List Observation :=
      [⟨3, 0.5⟩, ⟨1, 0.25⟩, ⟨9, 0.75⟩, ⟨3, 0.375⟩, ⟨0, 0.0⟩, ⟨3, 1.0⟩, ⟨9, 0.5⟩, ⟨1, 0.25⟩]
    (∀ o ∈ capture, o.time.isNaN = false) ∧ (∀ i < 5, copiesIn capture i < UInt32.size) ∧
      (ofCapture 5 capture).CountsCopies 5 capture := by
  intro capture
  have htimes : ∀ o ∈ capture, o.time.isNaN = false := by decide
  have hcopies : ∀ i < 5, copiesIn capture i < UInt32.size := fun i _ =>
    List.countP_le_length.trans_lt (by decide)
  exact ⟨htimes, hcopies, countsCopies_ofCapture 5 capture htimes hcopies⟩

end Delivery

end Switchover
