import Mathlib
import Switchover.Proofs.Capture.Tally
import Switchover.Traffic.Simulator

/-!
The packets that a run sends. They go round by round to the targets in turn, so wherever the run is
stopped, each target has had the ids from zero on without a gap, one for each round that got to it,
and the targets that were first in the last round have had one more than the others.
-/
namespace Switchover

/-! ### Rounds -/

/-- How many of the first `k` packets go to one of `n` places, if they go to the places in turn. -/
def share (k n place : Nat) : Nat :=
  k / n + if place < k % n then 1 else 0

section Share
variable {k n place : Nat}

theorem share_eq_count (h : place < n) : share k n place = k.count (· % n = place) := by
  have hcount := Nat.count_modEq_card k (Nat.zero_lt_of_lt h) place
  rw [Nat.mod_eq_of_lt h] at hcount
  rw [share, ← hcount]
  simp only [Nat.ModEq, Nat.mod_eq_of_lt h]

theorem share_succ (h : place < n) :
    share (k + 1) n place = share k n place + if k % n = place then 1 else 0 := by
  rw [share_eq_count h, share_eq_count h, Nat.count_succ]

/-- Whole rounds get to every place. -/
theorem share_mul (h : place < n) (rounds : Nat) : share (rounds * n) n place = rounds := by
  rw [share, Nat.mul_mod_left, Nat.mul_div_cancel _ (Nat.zero_lt_of_lt h),
    if_neg (Nat.not_lt_zero _), Nat.add_zero]

theorem share_mono (h : place < n) {l : Nat} (hle : k ≤ l) : share k n place ≤ share l n place := by
  rw [share_eq_count h, share_eq_count h]
  exact Nat.count_monotone _ hle

/-- An earlier place is at most one packet ahead of a later one. -/
theorem share_le_share {later : Nat} (h : place ≤ later) :
    share k n later ≤ share k n place ∧ share k n place ≤ share k n later + 1 := by
  rw [share, share]
  split_ifs <;> omega

end Share

namespace Simulator
variable {s g : Simulator} {pick : Nat → Nat} {direction : Direction}

/-! ### Targets -/

theorem generate_eq_ok (h : s.generate pick direction = .ok g) :
    s.packets ≠ 0 ∧ g.targets ≠ [] ∧ g = { s with targets := s.chooseTargets pick direction } := by
  dsimp only [generate] at h
  split_ifs at h with hpackets hempty
  obtain rfl := Except.ok.inj h
  exact ⟨hpackets, by simpa using hempty, rfl⟩

theorem length_targets_pos (h : g.targets ≠ []) : 0 < g.targets.length :=
  List.length_pos_of_ne_nil h

/-- The target of a packet. -/
def targetAt (g : Simulator) (h : g.targets ≠ []) (k : Nat) : Endpoint :=
  g.targets.get ⟨k % g.targets.length, Nat.mod_lt _ (length_targets_pos h)⟩

theorem targetAt_mem (h : g.targets ≠ []) (k : Nat) : g.targetAt h k ∈ g.targets :=
  List.get_mem _ _

theorem targetAt_eq_iff (h : g.targets ≠ []) (hdistinct : g.targets.Nodup) {e : Endpoint}
    (he : e ∈ g.targets) (k : Nat) :
    g.targetAt h k = e ↔ k % g.targets.length = g.targets.idxOf e := by
  constructor
  · rintro rfl
    rw [targetAt, List.get_eq_getElem, hdistinct.idxOf_getElem]
  · intro hturn
    simp only [targetAt, List.get_eq_getElem, hturn, List.getElem_idxOf]

theorem sendAt?_eq (h : g.targets ≠ []) (k : Nat) : g.sendAt? k =
    some ⟨UInt64.ofNat (k / g.targets.length), g.targetAt h k⟩ := by
  rw [sendAt?, List.getElem?_eq_getElem (Nat.mod_lt _ (length_targets_pos h)), Option.map_some]
  rfl

/-- The first `k` packets of a run. -/
def firstSends (s : Simulator) (k : Nat) : List Send :=
  (List.range k).filterMap s.sendAt?

theorem firstSends_succ (h : g.targets ≠ []) (k : Nat) : g.firstSends (k + 1) =
    g.firstSends k ++ [⟨UInt64.ofNat (k / g.targets.length), g.targetAt h k⟩] := by
  rw [firstSends, List.range_succ, List.filterMap_append, ← firstSends, List.filterMap_cons,
    sendAt?_eq h, List.filterMap_nil]

/-- The first packets go to the first targets, one each. -/
theorem mem_targets_firstSends (h : g.targets ≠ []) {e : Endpoint} {k : Nat} :
    e ∈ (g.firstSends k).map (·.target) ↔ e ∈ g.targets.take k := by
  induction k with
  | zero => simp [firstSends]
  | succ k ih =>
    rw [firstSends_succ h, List.map_append, List.mem_append, ih, List.map_singleton,
      List.mem_singleton]
    by_cases hk : k < g.targets.length
    · simp only [targetAt, List.get_eq_getElem, Nat.mod_eq_of_lt hk,
        List.take_succ_eq_append_getElem hk, List.mem_append, List.mem_singleton]
    · -- from the second round on there is no new target
      rw [List.take_of_length_le (by omega), List.take_of_length_le (by omega)]
      exact or_iff_left_of_imp fun he => he ▸ targetAt_mem h k

/-! ### Ids -/

/-- The ids that a run sends to one of its targets. -/
theorem ids_firstSends (hdistinct : g.targets.Nodup) {e : Endpoint} (he : e ∈ g.targets) (k : Nat) :
    ((g.firstSends k).filter (·.target = e)).map (·.id) =
      idsBelow (share k g.targets.length (g.targets.idxOf e)) := by
  have hne : g.targets ≠ [] := List.ne_nil_of_mem he
  have hplace := List.idxOf_lt_length_of_mem he
  induction k with
  | zero => simp [firstSends, share, idsBelow]
  | succ k ih =>
    have htarget := targetAt_eq_iff hne hdistinct he k
    rw [firstSends_succ hne, List.filter_append, List.map_append, ih, share_succ hplace]
    by_cases hturn : k % g.targets.length = g.targets.idxOf e
    · have hround : share k g.targets.length (g.targets.idxOf e) = k / g.targets.length := by
        rw [share, if_neg (by omega), Nat.add_zero]
      simp [hturn, htarget.mpr hturn, idsBelow_succ, hround]
    · simp [hturn, htarget]

/-- How many packets a run that is stopped sends to one of its targets. -/
def allotment (g : Simulator) (stop : Option Nat) (e : Endpoint) : Nat :=
  share (min (stop.getD g.total) g.total) g.targets.length (g.targets.idxOf e)

theorem ids_schedule (hdistinct : g.targets.Nodup) {e : Endpoint} (he : e ∈ g.targets)
    (stop : Option Nat) : ((g.schedule stop).filter (·.target = e)).map (·.id) =
      idsBelow (g.allotment stop e) :=
  ids_firstSends hdistinct he _

theorem allotment_none {e : Endpoint} (he : e ∈ g.targets) :
    g.allotment none e = g.packets.toNat := by
  rw [allotment, Option.getD_none, Nat.min_self, total, share_mul (List.idxOf_lt_length_of_mem he)]

/-- No target is sent more packets than there are rounds. -/
theorem allotment_le {e : Endpoint} (he : e ∈ g.targets) (stop : Option Nat) :
    g.allotment stop e ≤ g.packets.toNat := by
  have hplace := List.idxOf_lt_length_of_mem he
  calc g.allotment stop e
      ≤ share g.total g.targets.length (g.targets.idxOf e) :=
        share_mono hplace (Nat.min_le_right ..)
    _ = g.packets.toNat := by rw [total, share_mul hplace]

/-- The earlier of two targets is sent at most one packet more than the later one. -/
theorem pairwise_allotment (hdistinct : g.targets.Nodup) (stop : Option Nat) :
    (g.targets.map (g.allotment stop)).Pairwise fun earlier later =>
      later ≤ earlier ∧ earlier ≤ later + 1 := by
  refine List.pairwise_map.mpr (List.pairwise_iff_getElem.mpr fun i j hi hj hij => ?_)
  rw [allotment, allotment, hdistinct.idxOf_getElem, hdistinct.idxOf_getElem]
  exact share_le_share hij.le

end Simulator

end Switchover
