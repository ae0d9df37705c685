import Mathlib
import Switchover.Proofs.Bridge.Cover
import Switchover.Proofs.Capture.Tally

/-!
Bridging as connecting. Where the windows ascend by their ids as well as in time, going through them
once finds what is connected: two windows lie in one run just if there is a chain of windows from
one to the other, each of which overlaps or touches the next. So bridging leaves the ranges of the
components with an outage, and these do not depend on the order in which the windows are listed.
-/
namespace Switchover

/-- Whether the windows are proper, and in the order of time their first ids do not descend. -/
structure InStep (outages : List Window) (duplications : List Duplication) : Prop where
  proper : ∀ w ∈ allWindows outages duplications, w.startId ≤ w.endId
  ascending : (windowsByTime outages duplications).Pairwise
    fun a b => a.window.startId ≤ b.window.startId

/-- Whether two windows overlap, or one of them starts with the id behind the other. -/
def Window.Meets (v w : Window) : Prop :=
  v.startId ≤ nextId w.endId ∧ w.startId ≤ nextId v.endId

/-- Whether a chain of windows leads from one to another, each of which meets the next. -/
def Connected (ws : List Window) : Window → Window → Prop :=
  Relation.ReflTransGen fun v w => v ∈ ws ∧ w ∈ ws ∧ v.Meets w

/-- Whether the windows connected to `w` range from one id to another. -/
@[mk_iff]
structure ComponentRange (ws : List Window) (w : Window) (lo hi : UInt64) : Prop where
  first : ∃ v, Connected ws w v ∧ v.startId = lo
  lo_le : ∀ v, Connected ws w v → lo ≤ v.startId
  last : ∃ v, Connected ws w v ∧ v.endId = hi
  le_hi : ∀ v, Connected ws w v → v.endId ≤ hi

/-- The ids that a window ranges over. -/
def Window.range (w : Window) : UInt64 × UInt64 :=
  (w.startId, w.endId)

/-- Whether windows are what bridging makes of the components with an outage: one for each of them,
over all of its ids and apart from the others. -/
structure BridgesComponents (outages : List Window) (duplications : List Duplication)
    (bridged : List Window) : Prop where
  range_iff : ∀ lo hi, (∃ m ∈ bridged, m.startId = lo ∧ m.endId = hi) ↔
    ∃ w ∈ outages, ComponentRange (allWindows outages duplications) w lo hi
  apart : bridged.Pairwise fun m n => m.endId.toNat + 1 < n.startId.toNat
  filled : ∀ w ∈ outages, ∀ lo hi, ComponentRange (allWindows outages duplications) w lo hi →
    ∀ i, lo ≤ i → i ≤ hi →
      ∃ v, Connected (allWindows outages duplications) w v ∧ v.startId ≤ i ∧ i ≤ v.endId
  covered : ∀ w ∈ outages, ∃! m, m ∈ bridged ∧ m.Covers w

theorem ComponentRange.unique {ws : List Window} {w : Window} {lo hi lo' hi' : UInt64}
    (h : ComponentRange ws w lo hi) (h' : ComponentRange ws w lo' hi') : lo = lo' ∧ hi = hi' := by
  obtain ⟨⟨a, ha, rfl⟩, hlo, ⟨b, hb, rfl⟩, hhi⟩ := h
  obtain ⟨⟨c, hc, rfl⟩, hlo', ⟨d, hd, rfl⟩, hhi'⟩ := h'
  exact ⟨UInt64.le_antisymm (hlo c hc) (hlo' a ha), UInt64.le_antisymm (hhi' b hb) (hhi d hd)⟩

theorem meets_iff {a b : Block} :
    a.window.Meets b.window ↔ a.lo ≤ b.hi + 1 ∧ b.lo ≤ a.hi + 1 := by
  rw [← Block.touches_iff, ← Block.touches_iff, Block.touches, Block.touches, decide_eq_true_iff,
    decide_eq_true_iff]
  rfl

theorem Connected.symm {ws : List Window} {v w : Window} (h : Connected ws v w) :
    Connected ws w v := by
  induction h with
  | refl => exact .refl
  | tail _ hstep ih => exact .head ⟨hstep.2.1, hstep.1, hstep.2.2.2, hstep.2.2.1⟩ ih

theorem connected_congr {ws ws' : List Window} (h : ∀ w, w ∈ ws ↔ w ∈ ws') :
    Connected ws = Connected ws' := by
  simp only [Connected, h]

/-! ### Ids within a run -/

namespace Run
variable {r : Run}

/-- Joining leaves no gap: an id up to the end of a block lies in one of its windows. -/
theorem exists_mem_of_le_hi {a : Block} {l : List Block} {n : Nat} (h : a.Absorbs l)
    (hn : n ≤ (l.foldl Block.join a).hi) : n ≤ a.hi ∨ ∃ b ∈ l, b.lo ≤ n ∧ n ≤ b.hi := by
  induction l generalizing a with
  | nil => exact .inl hn
  | cons b l ih =>
    obtain ⟨htouch, hrest⟩ := h
    rcases ih hrest hn with hle | ⟨c, hc, hcn⟩
    · rw [Block.touches_iff] at htouch
      rw [Block.hi_join] at hle
      by_cases hna : n ≤ a.hi
      · exact .inl hna
      · exact .inr ⟨b, List.mem_cons_self .., by omega, by omega⟩
    · exact .inr ⟨c, List.mem_cons_of_mem _ hc, hcn⟩

theorem exists_mem_of_mem_range {n : Nat} (hlo : r.block.lo ≤ n) (hhi : n ≤ r.block.hi) :
    ∃ b ∈ r.windows, b.lo ≤ n ∧ n ≤ b.hi := by
  rw [lo_block] at hlo
  rcases exists_mem_of_le_hi r.absorbs hhi with hle | ⟨b, hb, hbn⟩
  · exact ⟨r.head, r.head_mem_windows, hlo, hle⟩
  · exact ⟨b, List.mem_cons_of_mem _ hb, hbn⟩

/-- A window behind others of its run touches one of them. -/
theorem exists_touches {a : Block} {front back : List Block} {b : Block}
    (h : a.Absorbs (front ++ b :: back)) : ∃ c ∈ a :: front, b.lo ≤ c.hi + 1 := by
  rw [Block.absorbs_append] at h
  obtain ⟨c, hc, hid, -⟩ := exists_end_foldl_join a front
  refine ⟨c, hc, ?_⟩
  have hhi : c.hi = (front.foldl Block.join a).hi := congrArg UInt64.toNat hid
  rw [hhi]
  exact Block.touches_iff.mp h.2.1

end Run

/-! ### Runs are components -/

namespace InStep
variable {outages : List Window} {duplications : List Duplication}

theorem window_mem {b : Block} (hb : b ∈ windowsByTime outages duplications) :
    b.window ∈ allWindows outages duplications :=
  (mem_allWindows ..).mpr ⟨b, hb, rfl⟩

/-- Windows are in step where a later time never comes with a lower id, and windows of one time are
listed by their ids. -/
theorem of_agrees (hproper : ∀ w ∈ allWindows outages duplications, w.startId ≤ w.endId)
    (hlater : ∀ v ∈ allWindows outages duplications, ∀ w ∈ allWindows outages duplications,
      timeRank v.startTime < timeRank w.startTime → v.startId ≤ w.startId)
    (hlisted : (allWindows outages duplications).Pairwise fun v w =>
      timeRank v.startTime = timeRank w.startTime → v.startId ≤ w.startId) :
    InStep outages duplications := by
  refine ⟨hproper, ?_⟩
  have hgiven : (outages.map (Block.mk · true) ++
      duplications.map fun d => Block.mk d.window false).Pairwise fun a b =>
        a.rank = b.rank → a.window.startId ≤ b.window.startId := by
    have hmap : (outages.map (Block.mk · true) ++
        duplications.map fun d => Block.mk d.window false).map (·.window) =
          allWindows outages duplications := by
      rw [List.map_append, List.map_map, List.map_map]
      exact congrArg (· ++ _) (List.map_id _)
    exact List.pairwise_map.mp (hmap ▸ hlisted)
  refine (pairwise_sortByRank hgiven).imp_of_mem fun ha hb hab => ?_
  rcases hab with hlt | ⟨heq, hle⟩
  · exact hlater _ (window_mem ha) _ (window_mem hb) hlt
  · exact hle heq

variable (h : InStep outages duplications) {r : Run}
  (hr : r ∈ runs (windowsByTime outages duplications))
include h

theorem lo_le_hi {b : Block} (hb : b ∈ windowsByTime outages duplications) : b.lo ≤ b.hi :=
  UInt64.le_iff_toNat_le.mp (h.proper b.window (window_mem hb))

theorem pairwise_runs : (runs (windowsByTime outages duplications)).Pairwise Run.Apart :=
  Run.pairwise_apart (apart_runs _) (by rw [flatMap_windows_runs]; exact fun b hb => h.lo_le_hi hb)

theorem pairwise_bridge :
    (bridge outages duplications).Pairwise fun m n => m.endId.toNat + 1 < n.startId.toNat := by
  rw [bridge_eq]
  exact List.pairwise_map.mpr (Run.pairwise_outageBlocks h.pairwise_runs)

theorem pairwise_startId :
    (bridge outages duplications).Pairwise fun m n => m.startId < n.startId := by
  refine h.pairwise_bridge.imp_of_mem fun {m n} hm _ hlt => ?_
  have hproper := startId_le_endId_of_mem_bridge _ _ h.proper hm
  rw [UInt64.le_iff_toNat_le] at hproper
  rw [UInt64.lt_iff_toNat_lt]
  omega

include hr

theorem lo_head_le {b : Block} (hb : b ∈ r.windows) : r.head.lo ≤ b.lo := by
  have hasc := h.ascending.sublist (Run.windows_sublist hr)
  rcases List.mem_cons.mp hb with rfl | hb
  · exact Nat.le_refl _
  · exact UInt64.le_iff_toNat_le.mp (List.rel_of_pairwise_cons hasc hb)

/-- Each window of a run meets one before it, and so is connected to the first one. -/
theorem connected_head {front back : List Block} (hsplit : r.windows = front ++ back) :
    ∀ b ∈ front, Connected (allWindows outages duplications) r.head.window b.window := by
  have hmem : ∀ b ∈ r.windows, b ∈ windowsByTime outages duplications := fun b hb =>
    (Run.windows_sublist hr).subset hb
  induction front using List.reverseRecOn generalizing back with
  | nil => simp
  | append_singleton front b ih =>
    rw [List.append_assoc, List.singleton_append] at hsplit
    intro x hx
    rcases List.mem_append.mp hx with hx | hx
    · exact ih hsplit x hx
    obtain rfl := List.mem_singleton.mp hx
    cases front with
    | nil =>
      obtain ⟨rfl, -⟩ : r.head = x ∧ r.tail = back := List.cons.inj hsplit
      exact .refl
    | cons a front =>
      obtain ⟨rfl, htail⟩ : r.head = a ∧ r.tail = front ++ x :: back := List.cons.inj hsplit
      obtain ⟨c, hc, htouch⟩ := Run.exists_touches (htail ▸ r.absorbs)
      have hcr : c ∈ r.windows := hsplit ▸ List.mem_append_left _ hc
      have hxr : x ∈ r.windows := by rw [hsplit]; simp
      have hasc := h.ascending.sublist (Run.windows_sublist hr)
      rw [hsplit] at hasc
      have hcx : c.lo ≤ x.lo := UInt64.le_iff_toNat_le.mp
        ((List.pairwise_append.mp hasc).2.2 c hc x (List.mem_cons_self ..))
      have hx := h.lo_le_hi (hmem x hxr)
      exact (ih hsplit c hc).tail ⟨window_mem (hmem c hcr), window_mem (hmem x hxr),
        meets_iff.mpr ⟨by omega, htouch⟩⟩

/-- Windows of different runs do not meet. -/
theorem eq_of_meets {s : Run} (hs : s ∈ runs (windowsByTime outages duplications)) {b c : Block}
    (hb : b ∈ r.windows) (hc : c ∈ s.windows) (hmeets : b.window.Meets c.window) : r = s := by
  refine eq_of_pairwise (R := fun r s => ∃ b ∈ r.windows, ∃ c ∈ s.windows,
    b.window.Meets c.window) ?_ hr hs ⟨b, hb, c, hc, hmeets⟩
  refine h.pairwise_runs.imp_of_mem fun {r s} _ hs hrs => ?_
  rw [Run.Apart] at hrs
  have hfar : ∀ b ∈ r.windows, ∀ c ∈ s.windows, b.hi + 1 < c.lo := fun b hb c hc => by
    have hhi := Run.hi_le_block hb
    have hlo := h.lo_head_le hs hc
    omega
  constructor
  · rintro ⟨b, hb, c, hc, hmeets⟩
    have hlt := hfar b hb c hc
    rw [meets_iff] at hmeets
    omega
  · rintro ⟨c, hc, b, hb, hmeets⟩
    have hlt := hfar b hb c hc
    rw [meets_iff] at hmeets
    omega

/-- The windows connected to one of a run are those of the run. -/
theorem connected_iff {a : Block} (ha : a ∈ r.windows) {v : Window} :
    Connected (allWindows outages duplications) a.window v ↔ ∃ b ∈ r.windows, b.window = v := by
  constructor
  · intro hconnected
    induction hconnected with
    | refl => exact ⟨a, ha, rfl⟩
    | tail _ hstep ih =>
      obtain ⟨b, hb, rfl⟩ := ih
      obtain ⟨c, hc, rfl⟩ := (mem_allWindows ..).mp hstep.2.1
      obtain ⟨s, hs, hcs⟩ := exists_mem_runs hc
      obtain rfl := h.eq_of_meets hr hs hb hcs hstep.2.2
      exact ⟨c, hcs, rfl⟩
  · rintro ⟨b, hb, rfl⟩
    have hhead := h.connected_head hr (List.append_nil r.windows).symm
    exact (hhead a ha).symm.trans (hhead b hb)

theorem componentRange_block {a : Block} (ha : a ∈ r.windows) :
    ComponentRange (allWindows outages duplications) a.window r.block.window.startId
      r.block.window.endId := by
  obtain ⟨z, hz, hid, -⟩ := Run.exists_end_foldl_join r.head r.tail
  refine ⟨⟨r.head.window, ?_, r.startId_block.symm⟩, fun v hv => ?_, ⟨z.window, ?_, hid⟩,
    fun v hv => ?_⟩
  · exact (h.connected_iff hr ha).mpr ⟨r.head, r.head_mem_windows, rfl⟩
  · obtain ⟨b, hb, rfl⟩ := (h.connected_iff hr ha).mp hv
    rw [r.startId_block]
    exact UInt64.le_iff_toNat_le.mpr (h.lo_head_le hr hb)
  · exact (h.connected_iff hr ha).mpr ⟨z, hz, rfl⟩
  · obtain ⟨b, hb, rfl⟩ := (h.connected_iff hr ha).mp hv
    exact UInt64.le_iff_toNat_le.mpr (Run.hi_le_block hb)

end InStep

/-! ### What bridging leaves -/

section Bridge
variable {outages : List Window} {duplications : List Duplication}

variable (duplications) in
/-- An outage lies in a run that bridging keeps. -/
theorem exists_outage_run {w : Window} (hw : w ∈ outages) :
    ∃ r ∈ runs (windowsByTime outages duplications), ⟨w, true⟩ ∈ r.windows ∧
      r.block.window ∈ bridge outages duplications := by
  obtain ⟨r, hr, hwr⟩ := exists_mem_runs (b := ⟨w, true⟩)
    ((mem_windowsByTime outages duplications).mpr (.inl ⟨w, hw, rfl⟩))
  exact ⟨r, hr, hwr, (mem_bridge ..).mpr ⟨r, hr, Run.outage_block_of_mem hwr rfl, rfl⟩⟩

theorem exists_outage_mem {r : Run} (hr : r ∈ runs (windowsByTime outages duplications))
    (hout : r.block.outage = true) : ∃ w ∈ outages, ⟨w, true⟩ ∈ r.windows := by
  obtain ⟨b, hb, hbout⟩ := List.any_eq_true.mp (r.outage_block ▸ hout)
  rcases (mem_windowsByTime ..).mp ((Run.windows_sublist hr).subset hb) with
    ⟨w, hw, rfl⟩ | ⟨d, -, rfl⟩
  · exact ⟨w, hw, hb⟩
  · exact absurd hbout Bool.noConfusion

theorem InStep.bridgesComponents (h : InStep outages duplications) :
    BridgesComponents outages duplications (bridge outages duplications) where
  range_iff lo hi := by
    constructor
    · rintro ⟨m, hm, rfl, rfl⟩
      obtain ⟨r, hr, hout, rfl⟩ := (mem_bridge ..).mp hm
      obtain ⟨w, hw, hwr⟩ := exists_outage_mem hr hout
      exact ⟨w, hw, h.componentRange_block hr hwr⟩
    · rintro ⟨w, hw, hrange⟩
      obtain ⟨r, hr, hwr, hmem⟩ := exists_outage_run duplications hw
      obtain ⟨rfl, rfl⟩ := hrange.unique (h.componentRange_block hr hwr)
      exact ⟨_, hmem, rfl, rfl⟩
  apart := h.pairwise_bridge
  filled w hw lo hi hrange i hlo hhi := by
    obtain ⟨r, hr, hwr, -⟩ := exists_outage_run duplications hw
    obtain ⟨rfl, rfl⟩ := hrange.unique (h.componentRange_block hr hwr)
    obtain ⟨b, hb, hbi⟩ := Run.exists_mem_of_mem_range (UInt64.le_iff_toNat_le.mp hlo)
      (UInt64.le_iff_toNat_le.mp hhi)
    exact ⟨b.window, (h.connected_iff hr hwr).mpr ⟨b, hb, rfl⟩,
      UInt64.le_iff_toNat_le.mpr hbi.1, UInt64.le_iff_toNat_le.mpr hbi.2⟩
  covered w hw := by
    obtain ⟨r, hr, hwr, hmem⟩ := exists_outage_run duplications hw
    have hproper : (⟨w, true⟩ : Block).lo ≤ (⟨w, true⟩ : Block).hi :=
      h.lo_le_hi ((Run.windows_sublist hr).subset hwr)
    have hcovers : r.block.window.Covers w :=
      covers_iff (b := ⟨w, true⟩) |>.mpr
        ⟨by rw [Run.lo_block]; exact h.lo_head_le hr hwr, Run.hi_le_block hwr⟩
    refine ⟨_, ⟨hmem, hcovers⟩, fun n hn => ?_⟩
    refine eq_of_pairwise (R := fun m n => m.Covers w ∧ n.Covers w) ?_ hn.1 hmem ⟨hn.2, hcovers⟩
    refine h.pairwise_bridge.imp fun hlt => ?_
    simp only [Window.Covers, UInt64.le_iff_toNat_le, Block.lo, Block.hi] at hproper ⊢
    omega

/-- The components, and so their ranges, are those of the windows in any order. -/
theorem InStep.map_range_eq {outages' : List Window} {duplications' : List Duplication}
    (h : InStep outages duplications) (h' : InStep outages' duplications')
    (hout : ∀ w, w ∈ outages' ↔ w ∈ outages)
    (hdup : ∀ w, w ∈ duplications'.map (·.window) ↔ w ∈ duplications.map (·.window)) :
    (bridge outages' duplications').map Window.range =
      (bridge outages duplications).map Window.range := by
  have hall : ∀ w, w ∈ allWindows outages' duplications' ↔ w ∈ allWindows outages duplications :=
    fun w => by rw [allWindows, allWindows, List.mem_append, List.mem_append, hout, hdup]
  have hrange : ∀ w lo hi, ComponentRange (allWindows outages' duplications') w lo hi ↔
      ComponentRange (allWindows outages duplications) w lo hi := fun w lo hi => by
    simp only [componentRange_iff, connected_congr hall]
  have hmem : ∀ {bridged : List Window} {p : UInt64 × UInt64}, p ∈ bridged.map Window.range ↔
      ∃ m ∈ bridged, m.startId = p.1 ∧ m.endId = p.2 := by
    simp [Window.range, Prod.ext_iff]
  refine eq_of_pairwise_lt (f := Prod.fst) (List.pairwise_map.mpr h'.pairwise_startId)
    (List.pairwise_map.mpr h.pairwise_startId) fun p => ?_
  rw [hmem, hmem, h.bridgesComponents.range_iff, h'.bridgesComponents.range_iff]
  simp only [hout, hrange]

end Bridge

/-- In step, bridging leaves the ranges of the components with an outage: the same ones for the same
windows, in whatever order they are listed. -/
theorem bridge_components (outages : List Window) (duplications : List Duplication)
    (h : InStep outages duplications) :
    BridgesComponents outages duplications (bridge outages duplications) ∧
      ∀ outages' duplications', InStep outages' duplications' →
        (∀ w, w ∈ outages' ↔ w ∈ outages) →
        (∀ w, w ∈ duplications'.map (·.window) ↔ w ∈ duplications.map (·.window)) →
        (bridge outages' duplications').map Window.range =
          (bridge outages duplications).map Window.range :=
  ⟨h.bridgesComponents, fun _ _ h' hout hdup => h.map_range_eq h' hout hdup⟩

/-- Two outages with two duplications between them are one component, the third outage is another
one, and a duplication behind it belongs to none. -/
theorem bridge_components_chain :
    let outages : List Window := [⟨9, 12, 1.0, 1.25⟩, ⟨5, 7, 0.5, 0.75⟩, ⟨0, 2, 0.0, 0.25⟩]
    let duplications : List Duplication :=
      [⟨⟨3, 3, 0.25, 0.5⟩, 1⟩, ⟨⟨4, 5, 0.375, 0.5⟩, 2⟩, ⟨⟨20, 20, 2.0, 2.5⟩, 1⟩]
    InStep outages duplications ∧
      BridgesComponents outages duplications (bridge outages duplications) ∧
      ∀ outages' duplications', InStep outages' duplications' →
        (∀ w, w ∈ outages' ↔ w ∈ outages) →
        (∀ w, w ∈ duplications'.map (·.window) ↔ w ∈ duplications.map (·.window)) →
        (bridge outages' duplications').map Window.range =
          (bridge outages duplications).map Window.range := by
  intro outages duplications
  have h : InStep outages duplications := .of_agrees (by decide) (by decide) (by decide)
  exact ⟨h, bridge_components outages duplications h⟩

end Switchover
