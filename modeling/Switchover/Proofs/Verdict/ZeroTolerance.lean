import Mathlib
import Switchover.Proofs.Capture.Tally
import Switchover.Proofs.Verdict.Rules

/-!
Zero tolerance. Thresholds that accept nothing are kept exactly by captures in which every packet
sent was captured once: a packet that is missing lies at an edge of the flow or in an outage, which
bridging cannot remove, and one captured twice makes a burst. Where neither happens there is nothing
whose number or length a rule could object to.
-/
namespace Switchover

/-- Thresholds that accept no outage, no duplicate and no packet missing. -/
def Thresholds.strict (bridging : Bool) : Thresholds :=
  { Thresholds.plain 0 0 with bridging }

theorem not_delay_strict_lt (bridging : Bool) : ¬ (Thresholds.strict bridging).delay < 0 := by
  cases bridging <;> decide

theorem isValid_strict (bridging : Bool) : (Thresholds.strict bridging).isValid = true := by
  cases bridging <;> decide

/-- The packets that were sent to one endpoint and the capture made of them. -/
structure Sample where
  sent : UInt64
  capture : List Observation

namespace Sample

/-- The delivery that a sample shows. -/
def delivery (s : Sample) : Delivery :=
  .ofCapture s.sent s.capture

/-- Whether no id of a sample was captured too often for its copies to be counted. -/
def Countable (s : Sample) : Prop :=
  ∀ i < s.sent, copiesIn s.capture i < UInt32.size

/-- Whether packets were sent and each of them was captured once. -/
def ExactlyOnce (s : Sample) : Prop :=
  0 < s.sent ∧ ∀ i < s.sent, copiesIn s.capture i = 1

end Sample

/-! ### Deliveries that no rule objects to -/

/-- Whether a delivery has packets, with none missing and none duplicated. -/
structure Delivery.Clean (d : Delivery) : Prop where
  received : d.received ≠ 0
  outages : d.outages = []
  duplications : d.duplications = []
  before : d.missingBefore = 0
  after : d.missingAfter = 0

/-- The first duplication always opens a burst. -/
theorem countBursts_eq_zero {ds : List Duplication} : countBursts ds = 0 ↔ ds = [] := by
  cases ds with
  | nil => exact iff_of_true rfl rfl
  | cons x ds => simp [countBursts, burstsFrom]

section Findings
variable {e : Endpoint} {d : Delivery}

/-- A clean delivery keeps all rules, whatever the thresholds. -/
theorem findings_of_clean {t : Thresholds} (ht : ¬ t.delay < 0) (h : d.Clean) :
    findings t e d = [] := by
  obtain ⟨hreceived, houtages, hduplications, hbefore, hafter⟩ := h
  rw [← outages_seenBy_eq_nil (t := t)] at houtages
  refine findings_eq_nil_iff.mpr fun rule => ?_
  cases rule with
  | nothingReceived => simp [Rule.isViolated, Summary.ofDelivery, hreceived]
  | tooManyOutages => simp [Rule.isViolated, Summary.ofDelivery, houtages]
  | outageTooLong => simp [Rule.isViolated, Summary.ofDelivery, houtages, longest, ht]
  | tooManyBursts =>
    simp [Rule.isViolated, Summary.ofDelivery, hduplications, countBursts_eq_zero.mpr rfl]
  | tooManyCopies =>
    simp [Rule.isViolated, Summary.ofDelivery, hduplications, worstDuplication]
  | duplicationTooLong =>
    simp [Rule.isViolated, Summary.ofDelivery, hduplications, longest, ht]
  | missingBefore => simp [Rule.isViolated, Summary.ofDelivery, hbefore]
  | missingAfter => simp [Rule.isViolated, Summary.ofDelivery, hafter]

/-- Where nothing is accepted, the rules on numbers alone rule out all but clean deliveries. -/
theorem clean_of_findings_strict {bridging : Bool} (h : findings (.strict bridging) e d = []) :
    d.Clean := by
  have hkept := findings_eq_nil_iff.mp h
  refine ⟨?_, outages_seenBy_eq_nil (t := .strict bridging) |>.mp ?_, countBursts_eq_zero.mp ?_,
    ?_, ?_⟩
  · simpa [Rule.isViolated, Summary.ofDelivery] using hkept .nothingReceived
  · simpa [Rule.isViolated, Summary.ofDelivery, Thresholds.strict, Thresholds.plain]
      using hkept .tooManyOutages
  · simpa [Rule.isViolated, Summary.ofDelivery, Thresholds.strict, Thresholds.plain,
      Thresholds.bounds] using hkept .tooManyBursts
  · simpa [Rule.isViolated, Summary.ofDelivery, Thresholds.strict, Thresholds.plain,
      UInt64.pos_iff_ne_zero] using hkept .missingBefore
  · simpa [Rule.isViolated, Summary.ofDelivery, UInt64.pos_iff_ne_zero] using hkept .missingAfter

end Findings

/-! ### Captures that show clean deliveries -/

namespace Delivery
variable {d : Delivery} {sent : UInt64} {copies : UInt64 → Nat}

/-- A clean delivery shows every packet sent. -/
theorem Clean.shows (h : d.Clean) {i : UInt64} (hi : i < d.sent) : d.Shows i := by
  have hone : (1 : UInt64).toNat = 1 := rfl
  have hlt := UInt64.lt_iff_toNat_lt.mp hi
  refine ⟨h.received, h.before ▸ UInt64.zero_le, hi, ?_, by simp [h.outages]⟩
  rw [h.after, UInt64.sub_zero, UInt64.le_iff_toNat_le,
    UInt64.toNat_sub_of_le _ _ (by rw [UInt64.le_iff_toNat_le]; omega)]
  omega

/-- A delivery is clean just when it tells of one copy of each packet. -/
theorem Tells.clean_iff (h : d.Tells sent copies) :
    d.Clean ↔ 0 < sent ∧ ∀ i < sent, copies i = 1 := by
  constructor
  · intro hclean
    have hpos : 0 < sent := by
      have hreceived := UInt64.toNat_inj.not.mpr hclean.received
      rw [h.received_eq] at hreceived
      obtain ⟨i, hi⟩ := List.exists_mem_of_length_pos (Nat.pos_of_ne_zero hreceived)
      exact UInt64.lt_of_le_of_lt UInt64.zero_le (mem_idsBelow.mp (List.mem_filter.mp hi).1)
    refine ⟨hpos, fun i hi => ?_⟩
    have harrived := (h.shows_iff i).mp (hclean.shows (h.sent_eq ▸ hi))
    have hle := h.duplications_eq_nil_iff.mp hclean.duplications i hi
    have := harrived.2
    omega
  · rintro ⟨hpos, hone⟩
    have hall : ∀ i < sent, Arrived sent copies i := fun i hi => ⟨hi, by rw [hone i hi]; decide⟩
    exact ⟨h.received_ne_zero (hall 0 hpos), h.outages_eq_nil hall,
      h.duplications_eq_nil_iff.mpr fun i hi => (hone i hi).le,
      h.missingBefore_eq_zero hall, h.missingAfter_eq_zero hall⟩

end Delivery

theorem Sample.clean_delivery_iff {s : Sample} (h : s.Countable) :
    s.delivery.Clean ↔ s.ExactlyOnce :=
  (Delivery.tells_ofCapture h).clean_iff

/-- Where nothing is accepted, a report has no failures exactly if every packet to every endpoint
was captured once, with or without bridging. -/
theorem failures_strict_iff (samples : EndpointMap Sample) (bridging : Bool)
    (h : ∀ entry ∈ samples.entries, entry.2.Countable) :
    ∃ report, evaluate (.strict bridging) (samples.map fun _ s => s.delivery) = .ok report ∧
      (report.failures = [] ↔ ∀ entry ∈ samples.entries, entry.2.ExactlyOnce) := by
  obtain ⟨report, hreport⟩ : ∃ report,
      evaluate (.strict bridging) (samples.map fun _ s => s.delivery) = .ok report :=
    ⟨_, if_pos (isValid_strict bridging)⟩
  refine ⟨report, hreport, (failures_of_evaluate hreport).trans ⟨fun hnone entry hentry => ?_,
    fun honce entry hentry => ?_⟩⟩
  · have hfind : findings (.strict bridging) entry.1 entry.2.delivery = [] :=
      hnone (entry.1, entry.2.delivery) (List.mem_map_of_mem hentry)
    have hclean : entry.2.delivery.Clean := clean_of_findings_strict hfind
    exact (Sample.clean_delivery_iff (h entry hentry)).mp hclean
  · obtain ⟨sample, hsample, rfl⟩ := List.mem_map.mp hentry
    have hclean : sample.2.delivery.Clean :=
      (Sample.clean_delivery_iff (h sample hsample)).mpr (honce sample hsample)
    exact findings_of_clean (not_delay_strict_lt bridging) hclean

/-- One endpoint receives all packets out of order, the other one a packet twice. -/
theorem failures_strict_repeat :
    let samples : EndpointMap Sample :=
      ⟨[(⟨"10.0.0.1"⟩, ⟨3, [⟨1, 0.1⟩, ⟨0, 0.2⟩, ⟨7, 0.3⟩, ⟨2, 0.4⟩]⟩),
        (⟨"10.0.0.2"⟩, ⟨2, [⟨0, 0.1⟩, ⟨1, 0.2⟩, ⟨1, 0.3⟩]⟩)]⟩
    (∀ entry ∈ samples.entries, entry.2.Countable) ∧
      ∃ report, evaluate (.strict true) (samples.map fun _ s => s.delivery) = .ok report ∧
        (report.failures = [] ↔ ∀ entry ∈ samples.entries, entry.2.ExactlyOnce) := by
  intro samples
  have h : ∀ entry ∈ samples.entries, entry.2.Countable := by
    intro entry hentry i _
    have hlength : ∀ entry ∈ samples.entries, entry.2.capture.length < UInt32.size := by
      simp [samples, UInt32.size]
    exact List.countP_le_length.trans_lt (hlength entry hentry)
  exact ⟨h, failures_strict_iff samples true h⟩

end Switchover
