import Mathlib
import Switchover.Proofs.Length
import Switchover.Proofs.Verdict.Conditions
import Switchover.Proofs.Verdict.Rules

/-!
Loosening thresholds. Every rule compares a figure of the delivery with a limit, and the figures do
not depend on the limits as long as bridging stays as it is. So with greater limits no rule is
broken that was kept. The limit on all windows together is a product of two others, rounded; it
grows with them because rounding keeps the order of numbers.
-/
namespace Switchover

/-- Whether the limits of `t'` are nowhere below those of `t`. -/
structure Thresholds.LoosensTo (t t' : Thresholds) : Prop where
  bridging_eq : t.bridging = t'.bridging
  allowedOutages_le : t.allowedOutages ≤ t'.allowedOutages
  delay_le : t.delay ≤ t'.delay
  bursts_le : t.bounds.bursts ≤ t'.bounds.bursts
  copies_le : t.bounds.copies ≤ t'.bounds.copies
  allowMissingBefore : t.allowMissingBefore = true → t'.allowMissingBefore = true

/-- Whether a rule has a sentence on a delivery in the report. -/
def Rule.Violated (t : Thresholds) (d : Delivery) (rule : Rule) : Prop :=
  rule.isViolated t (d.seenBy t) (Summary.ofDelivery (d.seenBy t)) = true

section Loosening
variable {t t' : Thresholds}

theorem isLength_delay (ht : t.isValid = true) : IsLength t.delay :=
  ⟨(Bool.and_eq_true_iff.mp ht).1, not_delay_lt_zero ht⟩

theorem seenBy_congr (h : t.bridging = t'.bridging) (d : Delivery) : d.seenBy t = d.seenBy t' := by
  rw [Delivery.seenBy, Delivery.seenBy, h]

theorem budget_mono (ht : t.isValid = true) (ht' : t'.isValid = true) (h : t.LoosensTo t') :
    t.budget ≤ t'.budget :=
  length_mul_mono (isLength_toFloat _) (isLength_toFloat _) (isLength_delay ht)
    (isLength_delay ht') (toFloat_mono h.allowedOutages_le) h.delay_le

theorem overrunBy_of_loosensTo (ht : t.isValid = true) (ht' : t'.isValid = true)
    (h : t.LoosensTo t') {ws : List Window} (hws : t'.OverrunBy ws) : t.OverrunBy ws := by
  obtain ⟨⟨w, hw, hlong⟩, htotal⟩ := hws
  exact ⟨⟨w, hw, time_lt_of_le_of_lt h.delay_le hlong⟩,
    time_lt_of_le_of_lt (budget_mono ht ht' h) htotal⟩

/-- A rule that is broken with greater limits is broken with smaller ones. -/
theorem broken_of_loosensTo (ht : t.isValid = true) (ht' : t'.isValid = true)
    (h : t.LoosensTo t') {d : Delivery} {rule : Rule} (hbroken : rule.Broken t' d) :
    rule.Broken t d := by
  cases rule with
  | nothingReceived => exact hbroken
  | tooManyOutages => exact (UInt32.le_iff_toNat_le.mp h.allowedOutages_le).trans_lt hbroken
  | outageTooLong => exact overrunBy_of_loosensTo ht ht' h hbroken
  | tooManyBursts => exact (UInt32.le_iff_toNat_le.mp h.bursts_le).trans_lt hbroken
  | tooManyCopies =>
    obtain ⟨x, hx, hlt⟩ := hbroken
    exact ⟨x, hx, UInt32.lt_of_le_of_lt h.copies_le hlt⟩
  | duplicationTooLong => exact overrunBy_of_loosensTo ht ht' h hbroken
  | missingBefore =>
    refine ⟨?_, hbroken.2⟩
    exact Bool.eq_false_iff.mpr fun hallowed =>
      Bool.eq_false_iff.mp hbroken.1 (h.allowMissingBefore hallowed)
  | missingAfter => exact hbroken

theorem violated_of_loosensTo (ht : t.isValid = true) (ht' : t'.isValid = true)
    (h : t.LoosensTo t') {d : Delivery} {rule : Rule} (hviolated : rule.Violated t' d) :
    rule.Violated t d := by
  rw [Rule.Violated, isViolated_iff ht', ← seenBy_congr h.bridging_eq] at hviolated
  exact (isViolated_iff ht rule).mpr (broken_of_loosensTo ht ht' h hviolated)

end Loosening

/-! ### Promotion -/

section Promotion
variable {t t' : Thresholds}

/-- The bounds on duplication follow the outages where the caller gives none. -/
theorem loosensTo_of_allowedDuplication (hbridging : t.bridging = t'.bridging)
    (houtages : t.allowedOutages ≤ t'.allowedOutages) (hdelay : t.delay ≤ t'.delay)
    (hduplication : t.allowedDuplication = t'.allowedDuplication)
    (hbefore : t.allowMissingBefore = true → t'.allowMissingBefore = true) : t.LoosensTo t' := by
  refine ⟨hbridging, houtages, hdelay, ?_, ?_, hbefore⟩ <;>
    rw [Thresholds.bounds, Thresholds.bounds, ← hduplication] <;>
    split <;> first | exact houtages | exact UInt32.le_refl _

theorem isValid_promoted (t : Thresholds) : t.promoted.isValid = t.isValid := by
  rw [Thresholds.promoted]
  split_ifs <;> rfl

/-- Promotion changes the number of outages only. -/
theorem promoted_eq (t : Thresholds) : t.promoted = { t with
    allowedOutages := if t.delay != 0 && t.allowedOutages == 0 then 1 else t.allowedOutages } := by
  rw [Thresholds.promoted]
  split_ifs <;> rfl

theorem loosensTo_promoted (ht : t.isValid = true) : t.LoosensTo t.promoted := by
  rw [promoted_eq]
  refine loosensTo_of_allowedDuplication rfl ?_ (time_le_refl (isLength_delay ht).isNaN_eq) rfl id
  change t.allowedOutages ≤ if _ then 1 else t.allowedOutages
  split_ifs with h
  · rw [beq_iff_eq.mp (Bool.and_eq_true_iff.mp h).2]
    exact UInt32.zero_le
  · exact UInt32.le_refl _

/-- Where the smaller limits are promoted, the greater ones either are as well or accept an outage
already. -/
theorem promoted_loosensTo (ht : t.isValid = true) (h : t.LoosensTo t')
    (hduplication : t.allowedDuplication = t'.allowedDuplication) :
    t.promoted.LoosensTo t'.promoted := by
  rw [promoted_eq, promoted_eq]
  refine loosensTo_of_allowedDuplication h.bridging_eq ?_ h.delay_le hduplication
    h.allowMissingBefore
  have hle := UInt32.le_iff_toNat_le.mp h.allowedOutages_le
  have hone : (1 : UInt32).toNat = 1 := rfl
  change (if _ then 1 else t.allowedOutages) ≤ if _ then 1 else t'.allowedOutages
  rw [UInt32.le_iff_toNat_le]
  split_ifs with hp hp' hp'
  · exact le_rfl
  · have hdelay := (isLength_delay ht).bne_zero_of_le h.delay_le (Bool.and_eq_true_iff.mp hp).1
    rw [hdelay, Bool.true_and, beq_iff_eq, ← UInt32.toNat_inj] at hp'
    exact Nat.one_le_iff_ne_zero.mpr hp'
  · rw [beq_iff_eq.mp (Bool.and_eq_true_iff.mp hp').2] at hle
    exact hle.trans (Nat.zero_le _)
  · exact hle

end Promotion

/-! ### Loosening whole verifications -/

theorem passes_iff {t : Thresholds} {ds : Deliveries} {report : Report}
    (h : evaluate t ds = .ok report) : report.passes = true ↔
      ∀ entry ∈ ds.entries, ∀ rule : Rule, ¬ rule.Violated t entry.2 := by
  rw [Report.passes, List.isEmpty_iff, failures_of_evaluate h]
  refine forall₂_congr fun entry _ => findings_eq_nil_iff.trans (forall_congr' fun rule => ?_)
  exact Bool.eq_false_iff

/-- With greater limits no rule is violated that was kept, so a delivery that passes still does.
Promotion keeps the order of limits, and it raises them. -/
theorem violated_of_loosened {t t' : Thresholds} (ht : t.isValid = true) (ht' : t'.isValid = true)
    (h : t.LoosensTo t') :
    (∀ (d : Delivery) (rule : Rule), rule.Violated t' d → rule.Violated t d) ∧
    (∀ ds, ∃ report report', evaluate t ds = .ok report ∧ evaluate t' ds = .ok report' ∧
      (report.passes = true → report'.passes = true)) ∧
    (t.allowedDuplication = t'.allowedDuplication → t.promoted.LoosensTo t'.promoted) ∧
    (t.promoted.isValid = true ∧
      ∀ (d : Delivery) (rule : Rule), rule.Violated t.promoted d → rule.Violated t d) := by
  have hpromoted : t.promoted.isValid = true := (isValid_promoted t).trans ht
  refine ⟨fun d rule => violated_of_loosensTo ht ht' h, fun ds => ?_,
    promoted_loosensTo ht h, hpromoted,
    fun d rule => violated_of_loosensTo ht hpromoted (loosensTo_promoted ht)⟩
  refine ⟨_, _, if_pos ht, if_pos ht', fun hpasses => ?_⟩
  rw [passes_iff (if_pos ht)] at hpasses
  exact (passes_iff (if_pos ht')).mpr fun entry hentry rule hviolated =>
    hpasses entry hentry rule (violated_of_loosensTo ht ht' h hviolated)

/-- The smaller limits are promoted to one outage, the greater ones accept three already. -/
theorem violated_of_loosened_promoted :
    let t : Thresholds := Thresholds.plain 0 0.25
    let t' : Thresholds := { Thresholds.plain 3 0.5 with allowMissingBefore := true }
    t.isValid = true ∧ t'.isValid = true ∧ t.LoosensTo t' ∧
    (∀ (d : Delivery) (rule : Rule), rule.Violated t' d → rule.Violated t d) ∧
    (∀ ds, ∃ report report', evaluate t ds = .ok report ∧ evaluate t' ds = .ok report' ∧
      (report.passes = true → report'.passes = true)) ∧
    (t.allowedDuplication = t'.allowedDuplication → t.promoted.LoosensTo t'.promoted) ∧
    (t.promoted.isValid = true ∧
      ∀ (d : Delivery) (rule : Rule), rule.Violated t.promoted d → rule.Violated t d) := by
  intro t t'
  have ht : t.isValid = true := by decide
  have ht' : t'.isValid = true := by decide
  have h : t.LoosensTo t' := ⟨rfl, by decide, by decide, by decide, by decide, by decide⟩
  exact ⟨ht, ht', h, violated_of_loosened ht ht' h⟩

end Switchover
