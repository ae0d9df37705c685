import Mathlib
import Switchover.Proofs.Bridge.Cover

/-!
Captures in order. Where no id is first captured before a lower one, bridging only widens outages:
each lies in exactly one of the bridged ones, by its ids and by its times, and each of those has one
of the outages in it. Duplications reach on in time, but never back before an outage.
-/
namespace Switchover

/-- Whether no other capture of the same id was earlier. -/
def Observation.FirstIn (o : Observation) (capture : List Observation) : Prop :=
  ∀ p ∈ capture, p.id = o.id → o.time ≤ p.time

instance (o : Observation) (capture : List Observation) : Decidable (o.FirstIn capture) :=
  inferInstanceAs (Decidable (∀ p ∈ capture, _))

/-- Whether the ids below `sent` were first captured in their order, or at the same time. -/
def InOrder (sent : UInt64) (capture : List Observation) : Prop :=
  ∀ o ∈ capture, o.FirstIn capture → ∀ p ∈ capture, p.FirstIn capture →
    o.id < p.id → p.id < sent → o.time ≤ p.time

instance (sent : UInt64) (capture : List Observation) : Decidable (InOrder sent capture) :=
  inferInstanceAs (Decidable (∀ o ∈ capture, _))

section Capture
variable {sent : UInt64} {capture : List Observation}

/-! ### Times of arrivals -/

namespace Arrival
variable {a b : Arrival}

/-- The first time of an arrival is that of a first capture. -/
theorem exists_firstIn (h : ∀ o ∈ capture, o.time.isNaN = false) (ha : a ∈ ofCapture sent capture) :
    ∃ o ∈ capture, o.FirstIn capture ∧ o.id = a.id ∧ o.time = a.first := by
  obtain ⟨⟨o, ho, htime⟩, hle, -, -⟩ := bounds_ofCapture ha h
  obtain ⟨ho, hid⟩ := List.mem_filter.mp ho
  rw [decide_eq_true_iff] at hid
  refine ⟨o, ho, fun p hp hpo => ?_, hid, htime⟩
  rw [htime]
  exact hle p (List.mem_filter.mpr ⟨hp, by simpa using hpo.trans hid⟩)

theorem plain_first (h : ∀ o ∈ capture, Plain o.time) (ha : a ∈ ofCapture sent capture) :
    Plain a.first := by
  obtain ⟨o, ho, -, -, htime⟩ := exists_firstIn (fun o ho => (h o ho).1) ha
  exact htime ▸ h o ho

theorem plain_last (h : ∀ o ∈ capture, Plain o.time) (ha : a ∈ ofCapture sent capture) :
    Plain a.last := by
  obtain ⟨-, -, ⟨o, ho, htime⟩, -⟩ := spans_ofCapture ha h
  exact htime ▸ h o (List.mem_filter.mp ho).1

theorem first_le_last (h : ∀ o ∈ capture, Plain o.time) (ha : a ∈ ofCapture sent capture) :
    timeRank a.first ≤ timeRank a.last := by
  obtain ⟨⟨o, ho, htime⟩, -, -, hle⟩ := spans_ofCapture ha h
  rw [← htime]
  exact hle o ho

theorem first_le (h : ∀ o ∈ capture, Plain o.time) (hin : InOrder sent capture)
    (ha : a ∈ ofCapture sent capture) (hb : b ∈ ofCapture sent capture) (hab : a.id ≤ b.id) :
    timeRank a.first ≤ timeRank b.first := by
  rcases UInt64.le_iff_lt_or_eq.mp hab with hlt | heq
  · obtain ⟨o, ho, hof, hoid, hot⟩ := exists_firstIn (fun o ho => (h o ho).1) ha
    obtain ⟨p, hp, hpf, hpid, hpt⟩ := exists_firstIn (fun o ho => (h o ho).1) hb
    rw [← hot, ← hpt, ← le_iff_timeRank (h o ho) (h p hp)]
    exact hin o ho hof p hp hpf (by rw [hoid, hpid]; exact hlt)
      (by rw [hpid]; exact (mem_ofCapture.mp hb).1)
  · have hga := (mem_ofCapture.mp ha).2
    rw [heq, (mem_ofCapture.mp hb).2] at hga
    rw [Option.some.inj hga]

end Arrival

/-! ### Times of windows -/

namespace Delivery
variable {w : Window} {x : Block}

/-- A window starts at the first time of its first id, and ends no earlier than that of its last. -/
theorem times_of_mem_windows (h : ∀ o ∈ capture, Plain o.time)
    (hx : x ∈ (ofCapture sent capture).windows) :
    ∃ a ∈ Arrival.ofCapture sent capture, ∃ b ∈ Arrival.ofCapture sent capture,
      x.window.startId = a.id ∧ x.window.startTime = a.first ∧ x.window.endId = b.id ∧
        Plain x.window.endTime ∧ timeRank b.first ≤ timeRank x.window.endTime := by
  rcases exists_of_mem_windows hx with ⟨-, -, a, b, ha, hb, heq, -, -⟩ | ⟨-, c, hc, heq⟩
  · rw [heq]
    exact ⟨a, ha, b, hb, rfl, rfl, rfl, Arrival.plain_first h hb, Int.le_refl _⟩
  · rw [heq]
    exact ⟨c, hc, c, hc, rfl, rfl, rfl, Arrival.plain_last h hc, Arrival.first_le_last h hc⟩

/-- In order, every outage leads the windows behind it. -/
theorem leads_of_inOrder (h : ∀ o ∈ capture, Plain o.time) (hin : InOrder sent capture)
    (hw : w ∈ (ofCapture sent capture).outages) : (ofCapture sent capture).Leads w := by
  rw [leads_iff]
  intro x hx hlt
  obtain ⟨a, ha, -, -, hid, htime, -⟩ := times_of_mem_windows h (mem_windows hw)
  obtain ⟨b, hb, -, -, hid', htime', -⟩ := times_of_mem_windows h hx
  simp only [Block.lo, Block.rank] at *
  rw [htime, htime']
  exact Arrival.first_le h hin ha hb (by rw [← hid, ← hid', UInt64.le_iff_toNat_le]; omega)

/-- A run contains its outages by their times as well. -/
theorem outlasts_block (h : ∀ o ∈ capture, Plain o.time) (hin : InOrder sent capture)
    (hw : w ∈ (ofCapture sent capture).outages) {r : Run}
    (hr : r ∈ runs (ofCapture sent capture).windows) (hwr : ⟨w, true⟩ ∈ r.windows) :
    r.block.window.Outlasts w := by
  have hsub := run_sublist hr
  constructor
  · obtain ⟨a, ha, -, -, -, hhead, -⟩ :=
      times_of_mem_windows h (hsub.subset r.head_mem_windows)
    obtain ⟨b, hb, -, -, -, htime, -⟩ := times_of_mem_windows h (hsub.subset hwr)
    have hasc : Ascending Block.rank r.windows := (ascending_sortByRank _).sublist hsub
    have hle := hasc.head_le hwr
    simp only [Block.rank] at hle
    dsimp only at htime hle
    rw [Run.startTime_block, le_iff_timeRank (hhead ▸ Arrival.plain_first h ha)
      (htime ▸ Arrival.plain_first h hb)]
    exact hle
  · -- the window that ends the run ends no earlier than its last id was first captured
    obtain ⟨x, hx, hid, htime⟩ := Run.exists_end_foldl_join r.head r.tail
    obtain ⟨-, -, c, hc, -, -, hcid, hplain, hle⟩ := times_of_mem_windows h (hsub.subset hx)
    obtain ⟨a, b, -, hb, rfl, -, -⟩ := exists_between hw
    have hreach := (covers_block hwr
      (lo_head_le (leads_of_inOrder h hin hw) hr hwr)).2
    rw [Run.block, ← hid, hcid] at hreach
    rw [Run.block, ← htime, Arrival.gap]
    rw [le_iff_timeRank (Arrival.plain_first h hb) hplain]
    exact (Arrival.first_le h hin hb hc hreach).trans hle

/-- Bridging a delivery leaves outages that lie apart, no more than there were. -/
theorem pairwise_bridge : (bridge (ofCapture sent capture).outages
    (ofCapture sent capture).duplications).Pairwise
      fun m n => m.endId.toNat + 1 < n.startId.toNat := by
  rw [bridge_eq]
  exact List.pairwise_map.mpr (Run.pairwise_outageBlocks pairwise_runs)

theorem length_bridge_le (d : Delivery) :
    (bridge d.outages d.duplications).length ≤ d.outages.length := by
  have hle := Run.length_outageBlocks_le (runs (windowsByTime d.outages d.duplications))
  rw [flatMap_windows_runs, filter_outage_windowsByTime, (perm_sortByRank _).length_eq,
    List.length_map] at hle
  rw [bridge_eq, List.length_map]
  exact hle

/-- No two of the bridged outages contain the same one. -/
theorem eq_of_covers {m n : Window} (hw : w ∈ (ofCapture sent capture).outages)
    (hm : m ∈ bridge (ofCapture sent capture).outages (ofCapture sent capture).duplications)
    (hn : n ∈ bridge (ofCapture sent capture).outages (ofCapture sent capture).duplications)
    (hmw : m.Covers w) (hnw : n.Covers w) : n = m := by
  have hproper := (exists_bounds hw).1
  refine eq_of_pairwise (R := fun m n => m.Covers w ∧ n.Covers w) ?_ hn hm ⟨hnw, hmw⟩
  refine pairwise_bridge.imp fun h => ?_
  simp only [Window.Covers, UInt64.le_iff_toNat_le]
  omega

/-- In order, each outage lies in exactly one of the bridged ones, by ids and by times. Each of
those has an outage in it, so that there are no more of them, and they lie apart. -/
theorem bridge_widens (sent : UInt64) (capture : List Observation)
    (h : ∀ o ∈ capture, Plain o.time) (hin : InOrder sent capture) :
    let d := ofCapture sent capture
    let bridged := bridge d.outages d.duplications
    (∀ w ∈ d.outages, ∃ m ∈ bridged,
        m.Covers w ∧ m.Outlasts w ∧ ∀ n ∈ bridged, n.Covers w → n = m) ∧
      (∀ m ∈ bridged, ∃ w ∈ d.outages, m.Covers w ∧ m.Outlasts w) ∧
      bridged.length ≤ d.outages.length ∧
      bridged.Pairwise fun m n => m.endId.toNat + 1 < n.startId.toNat := by
  intro d bridged
  refine ⟨fun w hw => ?_, fun m hm => ?_, length_bridge_le d, pairwise_bridge⟩
  · obtain ⟨r, hr, hwr⟩ := exists_run hw
    have hcov := covers_block hwr (lo_head_le (leads_of_inOrder h hin hw) hr hwr)
    have hmem : r.block.window ∈ bridged :=
      mem_bridge.mpr ⟨r, hr, Run.outage_block_of_mem hwr rfl, rfl⟩
    exact ⟨_, hmem, hcov, outlasts_block h hin hw hr hwr,
      fun n hn hnw => eq_of_covers hw hmem hn hcov hnw⟩
  · obtain ⟨r, hr, hout, rfl⟩ := mem_bridge.mp hm
    rw [Run.outage_block, List.any_eq_true] at hout
    obtain ⟨x, hx, hxout⟩ := hout
    rcases exists_of_mem_windows ((run_sublist hr).subset hx) with ⟨-, hw, -⟩ | ⟨hxnot, -⟩
    · have hwr : ⟨x.window, true⟩ ∈ r.windows := hxout ▸ hx
      exact ⟨x.window, hw, covers_block hwr (lo_head_le (leads_of_inOrder h hin hw) hr hwr),
        outlasts_block h hin hw hr hwr⟩
    · rw [hxnot] at hxout
      exact absurd hxout (by decide)

/-- Two gaps share a packet that arrives again after the one that ends them. -/
theorem bridge_widens_again :
    let capture : List Observation := [⟨0, 0.0⟩, ⟨2, 0.25⟩, ⟨5, 0.25⟩, ⟨2, 0.75⟩, ⟨12, 0.5⟩]
    let d := Delivery.ofCapture 10 capture
    let bridged := bridge d.outages d.duplications
    ((∀ o ∈ capture, Plain o.time) ∧ InOrder 10 capture) ∧
      (∀ w ∈ d.outages, ∃ m ∈ bridged,
        m.Covers w ∧ m.Outlasts w ∧ ∀ n ∈ bridged, n.Covers w → n = m) ∧
      (∀ m ∈ bridged, ∃ w ∈ d.outages, m.Covers w ∧ m.Outlasts w) ∧
      bridged.length ≤ d.outages.length ∧
      bridged.Pairwise fun m n => m.endId.toNat + 1 < n.startId.toNat := by
  intro capture d bridged
  have hplain : ∀ o ∈ capture, Plain o.time := by decide
  have hin : InOrder 10 capture := by decide
  exact ⟨⟨hplain, hin⟩, bridge_widens 10 capture hplain hin⟩

end Delivery

end Capture

end Switchover
