import Mathlib
import Switchover.Proofs.Elapsed
import Switchover.Proofs.Verdict.Composition

/-!
Windows that are too long. A rule on the length of windows is broken only if all windows together
exceed a budget, so a window of negative length could make up for a long one. There is none among
windows that end no earlier than they start, and bridging, which takes the start of one window and
the end of another, leaves none. So one window that exceeds both limits alone is always reported.
-/
namespace Switchover

/-- Whether a window has a start and an end in time, in this order. -/
def Window.Timed (w : Window) : Prop :=
  w.startTime.isFinite = true ∧ w.endTime.isFinite = true ∧ w.startTime ≤ w.endTime

instance (w : Window) : Decidable w.Timed :=
  inferInstanceAs (Decidable (_ ∧ _ ∧ _))

/-- Whether the rule on the length of the given windows catches each one that exceeds both the delay
and the budget, and does not object where none exceeds the delay. -/
structure Rule.Catches (rule : Rule) (t : Thresholds) (e : Endpoint) (d : Delivery)
    (ws : List Window) : Prop where
  reported : (∃ w ∈ ws, t.delay < w.duration ∧ t.budget < w.duration) →
    rule.message t e (t.summary d) ∈ findings t e d
  silent : (∀ w ∈ ws, w.duration ≤ t.delay) →
    rule.message t e (t.summary d) ∉ findings t e d

/-! ### Windows in order of time -/

theorem Window.Timed.zero_le_duration {w : Window} (h : w.Timed) : 0 ≤ w.duration :=
  zero_le_sub h.1 h.2.1 h.2.2

/-- All windows together take no less time than each of them. -/
theorem duration_le_totalDuration {ws : List Window} (h : ∀ w ∈ ws, w.Timed) {w : Window}
    (hw : w ∈ ws) : w.duration ≤ totalDuration ws :=
  (le_foldl_add (time_le_refl isNaN_zero)
    (List.forall_mem_map.mpr fun w hw => (h w hw).zero_le_duration)).2 _ (List.mem_map_of_mem hw)

section Bridge
variable {outages : List Window} {duplications : List Duplication}

/-- Bridging takes the start of a window that starts no later than the one whose end it takes. -/
theorem startTime_le_endTime_of_mem_bridge
    (h : ∀ w ∈ allWindows outages duplications, w.startTime ≤ w.endTime) {m : Window}
    (hm : m ∈ bridge outages duplications) : m.startTime ≤ m.endTime := by
  obtain ⟨v, hv, w, hw, rfl, -, hrank⟩ := exists_bounds_of_mem_bridge _ _ hm
  have hstart := le_of_timeRank_le (isNaN_of_le (h v hv)).1 (isNaN_of_le (h w hw)).1 hrank
  exact time_le_trans hstart (h w hw)

theorem timed_of_mem_bridge (h : ∀ w ∈ allWindows outages duplications, w.Timed) {m : Window}
    (hm : m ∈ bridge outages duplications) : m.Timed := by
  have hle := startTime_le_endTime_of_mem_bridge (fun w hw => (h w hw).2.2) hm
  obtain ⟨v, hv, w, hw, rfl, -⟩ := exists_bounds_of_mem_bridge _ _ hm
  exact ⟨(h v hv).1, (h w hw).2.1, hle⟩

end Bridge

theorem timed_of_mem_seenBy {t : Thresholds} {d : Delivery}
    (h : ∀ w ∈ allWindows d.outages d.duplications, w.Timed) :
    ∀ w ∈ (d.seenBy t).outages, w.Timed := by
  rw [Delivery.seenBy]
  dsimp only
  split_ifs
  · exact fun w hw => timed_of_mem_bridge h hw
  · exact fun w hw => h w (List.mem_append_left _ hw)

/-! ### The rules on lengths -/

section Rules
variable {t : Thresholds} (ht : t.isValid = true)

theorem overrunBy_of_exceeds {ws : List Window} (h : ∀ w ∈ ws, w.Timed)
    (hlong : ∃ w ∈ ws, t.delay < w.duration ∧ t.budget < w.duration) : t.OverrunBy ws := by
  obtain ⟨w, hw, hdelay, hbudget⟩ := hlong
  exact ⟨⟨w, hw, hdelay⟩, time_lt_of_lt_of_le hbudget (duration_le_totalDuration h hw)⟩

theorem not_overrunBy {ws : List Window} (h : ∀ w ∈ ws, w.duration ≤ t.delay) :
    ¬ t.OverrunBy ws := by
  rintro ⟨⟨w, hw, hlong⟩, -⟩
  have hle := h w hw
  obtain ⟨hnw, hnt⟩ := isNaN_of_le hle
  exact (time_not_lt hnw hnt).mpr hle hlong

include ht

theorem catches_of_broken_iff {rule : Rule} {d : Delivery} {ws : List Window} (e : Endpoint)
    (hrule : rule.Broken t (d.seenBy t) ↔ t.OverrunBy ws) (h : ∀ w ∈ ws, w.Timed) :
    rule.Catches t e d ws := by
  have hmem : rule.message t e (t.summary d) ∈ findings t e d ↔ t.OverrunBy ws :=
    mem_findings_iff.trans ((isViolated_iff ht rule).trans hrule)
  exact ⟨fun hlong => hmem.mpr (overrunBy_of_exceeds h hlong),
    fun hshort => mt hmem.mp (not_overrunBy hshort)⟩

/-- Where all windows are in order of time, a window that exceeds both the delay and the budget
alone is reported for its endpoint, and none is reported where none exceeds the delay. Bridging
leaves windows in order of time, and in order of ids if they were. -/
theorem evaluate_catches_overlong {ds : Deliveries} {e : Endpoint} {d : Delivery}
    (hd : (e, d) ∈ ds.entries) (houtages : ∀ w ∈ d.outages, w.Timed)
    (hduplications : ∀ x ∈ d.duplications, x.window.Timed) :
    (∃ report front back, evaluate t ds = .ok report ∧ ds.entries = front ++ (e, d) :: back ∧
      report.failures = segments t front ++ findings t e d ++ segments t back) ∧
    Rule.outageTooLong.Catches t e d (d.seenBy t).outages ∧
    Rule.duplicationTooLong.Catches t e d ((d.seenBy t).duplications.map (·.window)) ∧
    (∀ m ∈ bridge d.outages d.duplications, m.Timed) ∧
    ((∀ w ∈ allWindows d.outages d.duplications, w.startId ≤ w.endId) →
      ∀ m ∈ bridge d.outages d.duplications, m.startId ≤ m.endId) := by
  have hmap : ∀ w ∈ d.duplications.map (·.window), w.Timed := List.forall_mem_map.mpr hduplications
  have hall : ∀ w ∈ allWindows d.outages d.duplications, w.Timed :=
    List.forall_mem_append.mpr ⟨houtages, hmap⟩
  obtain ⟨front, back, hentries⟩ := List.append_of_mem hd
  refine ⟨⟨_, front, back, evaluate_eq ht ds, hentries, ?_⟩, ?_, ?_, ?_, ?_⟩
  · change segments t ds.entries = _
    rw [hentries, segments_append, segments_cons, List.append_assoc]
  · exact catches_of_broken_iff ht e Iff.rfl (timed_of_mem_seenBy hall)
  · exact catches_of_broken_iff ht e Iff.rfl hmap
  · exact fun m hm => timed_of_mem_bridge hall hm
  · exact fun hids m hm => startId_le_endId_of_mem_bridge _ _ hids hm

end Rules

/-- The only outage stays within the delay, but bridging joins a duplication to it, and both
together do not. -/
theorem evaluate_catches_overlong_bridged :
    let t : Thresholds := { Thresholds.plain 1 0.5 with bridging := true }
    let e : Endpoint := ⟨"10.0.0.9"⟩
    let d : Delivery := ⟨9, 7, [⟨1, 3, 0.25, 0.5⟩], [⟨⟨4, 5, 0.5, 1.0⟩, 1⟩], 0, 0⟩
    let ds : Deliveries := .ofList [(e, d)]
    t.isValid = true ∧ (e, d) ∈ ds.entries ∧ (∀ w ∈ d.outages, w.Timed) ∧
    (∀ x ∈ d.duplications, x.window.Timed) ∧
    (∃ report front back, evaluate t ds = .ok report ∧ ds.entries = front ++ (e, d) :: back ∧
      report.failures = segments t front ++ findings t e d ++ segments t back) ∧
    Rule.outageTooLong.Catches t e d (d.seenBy t).outages ∧
    Rule.duplicationTooLong.Catches t e d ((d.seenBy t).duplications.map (·.window)) ∧
    (∀ m ∈ bridge d.outages d.duplications, m.Timed) ∧
    ((∀ w ∈ allWindows d.outages d.duplications, w.startId ≤ w.endId) →
      ∀ m ∈ bridge d.outages d.duplications, m.startId ≤ m.endId) ∧
    Rule.outageTooLong.message t e (t.summary d) ∈ findings t e d := by
  intro t e d ds
  have ht : t.isValid = true := by decide
  have hd : (e, d) ∈ ds.entries := List.mem_singleton_self _
  have houtages : ∀ w ∈ d.outages, w.Timed := by decide
  have hduplications : ∀ x ∈ d.duplications, x.window.Timed := by decide
  have hsorted : windowsByTime d.outages d.duplications =
      [⟨⟨1, 3, 0.25, 0.5⟩, true⟩, ⟨⟨4, 5, 0.5, 1.0⟩, false⟩] :=
    List.mergeSort_of_pairwise (by decide)
  have hbridge : bridge d.outages d.duplications = [⟨1, 5, 0.25, 1.0⟩] := by
    rw [bridge, hsorted]
    rfl
  have hseen : (d.seenBy t).outages = [⟨1, 5, 0.25, 1.0⟩] := hbridge
  obtain ⟨hreport, hout, hrest⟩ := evaluate_catches_overlong ht hd houtages hduplications
  have hlong := hout.reported ⟨_, hseen ▸ List.mem_singleton_self _, by decide⟩
  exact ⟨ht, hd, houtages, hduplications, hreport, hout, hrest.1, hrest.2.1, hrest.2.2, hlong⟩

end Switchover
