import Mathlib
import Switchover.Proofs.Time
import Switchover.Verdict.Rule

/-!
When a rule is broken, in terms of the windows of a delivery. The rules look at figures of a
delivery: a number of entries, a length no window exceeds, the most copies of a packet. A limit is
below such a figure just if some window or some packet is beyond the limit. A length that is not a
number is beyond no limit.
-/
namespace Switchover

/-- Whether some window is longer than a single one may be, and all of them together than all may
be. -/
def Thresholds.OverrunBy (t : Thresholds) (ws : List Window) : Prop :=
  (∃ w ∈ ws, t.delay < w.duration) ∧ t.budget < totalDuration ws

/-- What a delivery has to show to break a rule. -/
def Rule.Broken (t : Thresholds) (d : Delivery) : Rule → Prop
  | nothingReceived => d.received = 0
  | tooManyOutages => t.allowedOutages.toNat < d.outages.length
  | outageTooLong => t.OverrunBy d.outages
  | tooManyBursts => t.bounds.bursts.toNat < countBursts d.duplications
  | tooManyCopies => ∃ x ∈ d.duplications, t.bounds.copies < x.excess
  | duplicationTooLong => t.OverrunBy (d.duplications.map (·.window))
  | missingBefore => t.allowMissingBefore = false ∧ d.missingBefore ≠ 0
  | missingAfter => d.missingAfter ≠ 0

/-! ### Figures beyond a limit -/

theorem lt_foldl_later {z start : Float} (h : start.isNaN = false) (times : List Float) :
    z < times.foldl later start ↔ z < start ∨ ∃ x ∈ times, z < x := by
  induction times generalizing start with
  | nil => simp
  | cons x times ih =>
    rw [List.foldl_cons, ih (isNaN_later h x), lt_later h, or_assoc, List.exists_mem_cons_iff]

/-- No window is beyond a limit that the longest keeps. -/
theorem lt_longest_iff {z : Float} (hz : ¬ z < 0) {ws : List Window} :
    z < longest ws ↔ ∃ w ∈ ws, z < w.duration := by
  rw [longest, lt_foldl_later isNaN_zero, or_iff_right hz]
  simp only [List.mem_map, exists_exists_and_eq_and]

theorem lt_foldl_worst (bound : UInt32) (best : UInt32 × Option UInt64) (ds : List Duplication) :
    bound < (ds.foldl (fun best d =>
      if best.1 < d.excess then (d.excess, some d.window.startId) else best) best).1 ↔
    bound < best.1 ∨ ∃ x ∈ ds, bound < x.excess := by
  induction ds generalizing best with
  | nil => simp
  | cons d ds ih =>
    rw [List.foldl_cons, ih, List.exists_mem_cons_iff, ← or_assoc]
    refine or_congr_left ?_
    split_ifs with h
    · exact ⟨.inr, fun hlt => hlt.elim (UInt32.lt_trans · h) id⟩
    · exact ⟨.inl, fun hlt => hlt.elim id (UInt32.lt_of_lt_of_le · (UInt32.not_lt.mp h))⟩

/-- No packet is beyond a bound that the worst keeps. -/
theorem lt_worstDuplication_iff {bound : UInt32} {ds : List Duplication} :
    bound < (worstDuplication ds).1 ↔ ∃ x ∈ ds, bound < x.excess := by
  rw [worstDuplication, lt_foldl_worst, or_iff_right UInt32.not_lt_zero]

/-! ### The rules -/

section Rules
variable {t : Thresholds} {d : Delivery}

theorem not_delay_lt_zero (ht : t.isValid = true) : ¬ t.delay < 0 := by
  rw [Thresholds.isValid, Bool.and_eq_true, Bool.not_eq_true', decide_eq_false_iff_not] at ht
  exact ht.2

theorem overrunBy_iff (ht : t.isValid = true) {ws : List Window} :
    (t.delay < longest ws ∧ exceedsBudget ws t.allowedOutages t.delay = true) ↔
      t.OverrunBy ws := by
  rw [lt_longest_iff (not_delay_lt_zero ht), exceedsBudget, decide_eq_true_iff]
  rfl

/-- A rule is violated by the figures of a delivery just if the delivery breaks it. -/
theorem isViolated_iff (ht : t.isValid = true) (rule : Rule) :
    rule.isViolated t d (Summary.ofDelivery d) = true ↔ rule.Broken t d := by
  cases rule with
  | nothingReceived => exact beq_iff_eq
  | tooManyOutages => exact decide_eq_true_iff
  | outageTooLong =>
    rw [Rule.isViolated, Bool.and_eq_true, decide_eq_true_iff]
    exact overrunBy_iff ht
  | tooManyBursts => exact decide_eq_true_iff
  | tooManyCopies => exact decide_eq_true_iff.trans lt_worstDuplication_iff
  | duplicationTooLong =>
    rw [Rule.isViolated, Bool.and_eq_true, decide_eq_true_iff]
    exact overrunBy_iff ht
  | missingBefore =>
    rw [Rule.isViolated, Bool.and_eq_true, Bool.not_eq_true', decide_eq_true_iff]
    exact and_congr_right' UInt64.pos_iff_ne_zero
  | missingAfter => exact decide_eq_true_iff.trans UInt64.pos_iff_ne_zero

end Rules

end Switchover
