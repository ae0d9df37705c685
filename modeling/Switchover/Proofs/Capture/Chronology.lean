import Mathlib
import Switchover.Proofs.Bridge.InOrder
import Switchover.Proofs.Capture.Tally

/-!
The order of times in a delivery. Outages are formed in the order of the ids, whatever the order in
which the packets came. So by ids they are proper windows that lie apart and ascend, and
duplications are proper windows by ids and by times; but an outage ends no earlier than it starts,
and outages ascend by their times, only as far as the ids that bound them were first captured in
their order.
-/
namespace Switchover

/-- Whether the id `i` was first captured no later than the id `j`. -/
def NoLater (capture : List Observation) (i j : UInt64) : Prop :=
  ∀ o ∈ capture, o.FirstIn capture → o.id = i →
    ∀ p ∈ capture, p.FirstIn capture → p.id = j → o.time ≤ p.time

section Capture
variable {sent : UInt64} {capture : List Observation}

namespace Arrival
variable {a b : Arrival}

/-- All first captures of one id have its first time. -/
theorem first_le_iff_noLater (h : ∀ o ∈ capture, o.time.isNaN = false)
    (ha : a ∈ ofCapture sent capture) (hb : b ∈ ofCapture sent capture) :
    a.first ≤ b.first ↔ NoLater capture a.id b.id := by
  obtain ⟨o, ho, hof, hoid, hot⟩ := exists_firstIn h ha
  obtain ⟨p, hp, hpf, hpid, hpt⟩ := exists_firstIn h hb
  constructor
  · intro hle x hx hxf hxid y hy hyf hyid
    have hxo : x.time ≤ o.time := hxf o ho (hoid.trans hxid.symm)
    have hpy : p.time ≤ y.time := hpf y hy (hyid.trans hpid.symm)
    rw [hot] at hxo
    rw [hpt] at hpy
    exact time_le_trans hxo (time_le_trans hle hpy)
  · intro hno
    rw [← hot, ← hpt]
    exact hno o ho hof hoid p hp hpf hpid

theorem time_first_le_last (h : ∀ o ∈ capture, o.time.isNaN = false)
    (ha : a ∈ ofCapture sent capture) : a.first ≤ a.last := by
  obtain ⟨⟨o, ho, htime⟩, -, -, hle⟩ := bounds_ofCapture ha h
  exact htime ▸ hle o ho

theorem one_le_excess {x : Duplication} (hx : a.duplication? = some x) : 1 ≤ x.excess := by
  have hone : (1 : UInt32).toNat = 1 := rfl
  have hexcess := toNat_excess hx
  have hmany := UInt32.lt_iff_toNat_lt.mp (duplication?_eq_some_iff.mp hx).1
  rw [UInt32.le_iff_toNat_le]
  omega

end Arrival

namespace Delivery

/-- What a duplication shows holds of its id: one packet, captured again no earlier. -/
theorem duplications_proper (h : ∀ o ∈ capture, o.time.isNaN = false) {x : Duplication}
    (hx : x ∈ (ofCapture sent capture).duplications) :
    x.window.startId ≤ x.window.endId ∧ x.window.startTime ≤ x.window.endTime ∧ 1 ≤ x.excess := by
  obtain ⟨c, hc, hwindow⟩ := exists_of_mem_duplications hx
  obtain ⟨d, -, hd⟩ := List.mem_filterMap.mp hx
  rw [hwindow]
  exact ⟨UInt64.le_refl _, Arrival.time_first_le_last h hc, Arrival.one_le_excess hd⟩

/-- The ids that bound an outage are a gap, and its times are their first times. -/
theorem exists_gap {w : Window} (hw : w ∈ (ofCapture sent capture).outages) :
    ∃ a ∈ Arrival.ofCapture sent capture, ∃ b ∈ Arrival.ofCapture sent capture,
      w = a.gap b ∧ Gap sent (copiesIn capture) a.id b.id := by
  obtain ⟨a, b, ha, hb, rfl, -, -⟩ := exists_between hw
  exact ⟨a, ha, b, hb, rfl, (gap_iff_ofCapture a.id b.id).mp ⟨_, hw, rfl, rfl⟩⟩

/-- Of two ids that bound outages of their own, the first times are those of the outages. -/
theorem startTime_le_iff (h : ∀ o ∈ capture, o.time.isNaN = false) {v w : Window}
    (hv : v ∈ (ofCapture sent capture).outages) (hw : w ∈ (ofCapture sent capture).outages) :
    v.startTime ≤ w.startTime ↔ NoLater capture v.startId w.startId := by
  obtain ⟨a, ha, b, -, rfl, -⟩ := exists_gap hv
  obtain ⟨c, hc, d, -, rfl, -⟩ := exists_gap hw
  exact Arrival.first_le_iff_noLater h ha hc

theorem startTime_le_endTime_iff (h : ∀ o ∈ capture, o.time.isNaN = false) {w : Window}
    (hw : w ∈ (ofCapture sent capture).outages) :
    w.startTime ≤ w.endTime ↔ NoLater capture w.startId w.endId := by
  obtain ⟨a, ha, b, hb, rfl, -⟩ := exists_gap hw
  exact Arrival.first_le_iff_noLater h ha hb

/-- No outage ends before it starts just when at no gap the id behind it was captured first. -/
theorem forall_startTime_le_endTime_iff (h : ∀ o ∈ capture, o.time.isNaN = false) :
    (∀ w ∈ (ofCapture sent capture).outages, w.startTime ≤ w.endTime) ↔
      ∀ i j, Gap sent (copiesIn capture) i j → NoLater capture i j := by
  constructor
  · intro hall i j hgap
    obtain ⟨w, hw, rfl, rfl⟩ := (gap_iff_ofCapture i j).mpr hgap
    exact (startTime_le_endTime_iff h hw).mp (hall w hw)
  · intro hall w hw
    exact (startTime_le_endTime_iff h hw).mpr
      (hall _ _ ((gap_iff_ofCapture _ _).mp ⟨w, hw, rfl, rfl⟩))

/-- The outages ascend by their times just when the ids that start them were captured in order. -/
theorem pairwise_startTime_iff (h : ∀ o ∈ capture, o.time.isNaN = false) :
    ((ofCapture sent capture).outages.Pairwise fun v w => v.startTime ≤ w.startTime) ↔
      ∀ i j k l, Gap sent (copiesIn capture) i j → Gap sent (copiesIn capture) k l → i < k →
        NoLater capture i k := by
  constructor
  · intro hpair i j k l hgap hgap' hlt
    obtain ⟨v, hv, rfl, rfl⟩ := (gap_iff_ofCapture i j).mpr hgap
    obtain ⟨w, hw, rfl, rfl⟩ := (gap_iff_ofCapture k l).mpr hgap'
    rw [← startTime_le_iff h hv hw]
    have hids : (ofCapture sent capture).outages.Pairwise
      fun v w => v.startId < w.startId ∧ v.endId ≤ w.startId := pairwise_outages
    -- of the two orders in which a list may hold them, the ids leave one
    have hfirst := hpair.imp fun {v w} hvw (_ : v.startId < w.startId) => hvw
    have hflip : (ofCapture sent capture).outages.Pairwise
        fun w v => v.startId < w.startId → v.startTime ≤ w.startTime :=
      hids.imp fun hwv hlt => absurd hlt (UInt64.lt_asymm hwv.1)
    exact hfirst.forall_of_forall_of_flip (fun _ _ hlt => absurd hlt (UInt64.lt_irrefl _)) hflip
      hv hw hlt
  · intro hall
    have hids : (ofCapture sent capture).outages.Pairwise
      fun v w => v.startId < w.startId ∧ v.endId ≤ w.startId := pairwise_outages
    refine hids.imp_of_mem fun hv hw hvw => ?_
    have hgap := (gap_iff_ofCapture _ _).mp ⟨_, hv, rfl, rfl⟩
    have hgap' := (gap_iff_ofCapture _ _).mp ⟨_, hw, rfl, rfl⟩
    exact (startTime_le_iff h hv hw).mpr (hall _ _ _ _ hgap hgap' hvw.1)

/-- By ids, the windows of a delivery are proper and its outages ascend and lie apart; by times, its
duplications are proper. The outages are proper and ascend by times exactly as far as the ids at
their bounds were first captured in order. -/
theorem windows_proper_iff (sent : UInt64) (capture : List Observation)
    (h : ∀ o ∈ capture, o.time.isNaN = false) :
    let d := ofCapture sent capture
    (∀ w ∈ d.outages, w.startId ≤ w.endId) ∧
      (d.outages.Pairwise fun v w => v.startId < w.startId ∧ v.endId ≤ w.startId) ∧
      (∀ x ∈ d.duplications, x.window.startId ≤ x.window.endId ∧
        x.window.startTime ≤ x.window.endTime ∧ 1 ≤ x.excess) ∧
      ((∀ w ∈ d.outages, w.startTime ≤ w.endTime) ↔
        ∀ i j, Gap sent (copiesIn capture) i j → NoLater capture i j) ∧
      ((d.outages.Pairwise fun v w => v.startTime ≤ w.startTime) ↔
        ∀ i j k l, Gap sent (copiesIn capture) i j → Gap sent (copiesIn capture) k l → i < k →
          NoLater capture i k) := by
  intro d
  refine ⟨fun w hw => ?_, pairwise_outages, fun x hx => duplications_proper h hx,
    forall_startTime_le_endTime_iff h, pairwise_startTime_iff h⟩
  have htwo := (exists_bounds hw).1
  rw [UInt64.le_iff_toNat_le]
  omega

/-- The packet behind each of two gaps arrives before the one in front of it, and the second gap
before the first one. -/
theorem windows_proper_iff_late :
    let capture : List Observation := [⟨5, 0.25⟩, ⟨2, 0.5⟩, ⟨2, 0.75⟩, ⟨0, 1.0⟩]
    let d := ofCapture 6 capture
    (∀ o ∈ capture, o.time.isNaN = false) ∧
      d.outages = [⟨0, 2, 1.0, 0.5⟩, ⟨2, 5, 0.5, 0.25⟩] ∧
      ¬ (∀ i j, Gap 6 (copiesIn capture) i j → NoLater capture i j) ∧
      ¬ (∀ i j k l, Gap 6 (copiesIn capture) i j → Gap 6 (copiesIn capture) k l → i < k →
          NoLater capture i k) := by
  intro capture d
  have h : ∀ o ∈ capture, o.time.isNaN = false := by decide
  have hout : d.outages = [⟨0, 2, 1.0, 0.5⟩, ⟨2, 5, 0.5, 0.25⟩] := by rfl
  obtain ⟨-, -, -, hproper, horder⟩ := windows_proper_iff 6 capture h
  rw [← hproper, ← horder]
  change _ ∧ _ ∧ ¬ (∀ w ∈ d.outages, _) ∧ ¬ d.outages.Pairwise _
  rw [hout]
  exact ⟨h, rfl, by decide, by decide⟩

end Delivery

end Capture

end Switchover
