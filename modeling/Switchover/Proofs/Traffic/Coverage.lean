import Mathlib
import Switchover.Proofs.Traffic.Records
import Switchover.Proofs.Verdict.Rules
import Switchover.Testbed.Harness

/-!
Which targets a passing run has data for. An endpoint is judged once it was sent a packet, and then
it does not pass unless it received something. A target that the run did not get to before it was
cut is not in the results, and nothing is said about it: a run that is cut before its first packet
passes without any results.
-/
namespace Switchover

/-- Whatever is accepted, an endpoint that passes has received something. -/
theorem received_pos_of_findings {t : Thresholds} {e : Endpoint} {d : Delivery}
    (h : findings t e d = []) : 0 < d.received := by
  have hkept := findings_eq_nil_iff.mp h .nothingReceived
  have hne : d.received ≠ 0 := by simpa [Rule.isViolated, Summary.ofDelivery] using hkept
  exact UInt64.pos_iff_ne_zero.mpr hne

/-- Results that are judged and handed back are those of the run, and have passed. -/
theorem verifyAndReport_eq_ok {t : Thresholds} {ds : Deliveries} {reported : Option Deliveries}
    (h : verifyAndReport true t (some ds) = .ok reported) :
    reported = some ds ∧ ∀ entry ∈ ds.entries, findings t entry.1 entry.2 = [] := by
  rw [verifyAndReport, if_pos rfl, verify] at h
  cases hreport : evaluate t ds with
  | error why => rw [hreport] at h; cases h
  | ok report =>
    rw [hreport] at h
    dsimp only at h
    split_ifs at h with hpasses
    exact ⟨(Except.ok.inj h).symm,
      (failures_of_evaluate hreport).mp (List.isEmpty_iff.mp hpasses)⟩

namespace Simulator
variable {s g : Simulator} {pick : Nat → Nat} {direction : Direction}

/-- The simulator after a run was tried. If the capture cannot be opened nothing has changed. -/
def attempt (s : Simulator) (stop : Option Nat) : Simulator :=
  match s.run stop with
  | .ok r => r
  | .error _ => s

theorem sends_attempt (s : Simulator) (stop : Option Nat) : (s.attempt stop).sends =
    if s.plan.failsOnStart then s.sends else s.sends ++ s.schedule stop := by
  by_cases hfails : s.plan.failsOnStart
  · simp only [attempt, run, if_pos hfails]
  · simp only [attempt, run, if_neg hfails]

/-- The targets that a run gets to before it is stopped. -/
def reached (s : Simulator) (stop : Option Nat) : List Endpoint :=
  match stop with
  | some k => s.targets.take k
  | none => s.targets

theorem mem_targets_schedule (hg : s.generate pick direction = .ok g) {stop : Option Nat}
    {e : Endpoint} : e ∈ (g.schedule stop).map (·.target) ↔ e ∈ g.reached stop := by
  obtain ⟨hpackets, hne, hsame⟩ := generate_eq_ok hg
  have hround : g.targets.length ≤ g.total := by
    have hpos : 0 < g.packets.toNat := by
      rw [hsame]
      exact UInt64.lt_iff_toNat_lt.mp (UInt64.pos_iff_ne_zero.mpr hpackets)
    exact Nat.le_mul_of_pos_left _ hpos
  rw [schedule, ← firstSends, mem_targets_firstSends hne, ← List.take_take,
    List.take_of_length_le hround]
  cases stop with
  | some k => rfl
  | none => rw [Option.getD_none, List.take_of_length_le hround, reached]

/-- In results that pass, the records are those of the endpoints that were sent a packet, and each
of these has received something. -/
theorem passing_record_iff {t : Thresholds} {reported : Option Deliveries}
    (hv : verifyAndReport true t s.examine.results = .ok reported) (e : Endpoint) :
    (∃ d, reported.bind (·.get? e) = some d ∧ 0 < d.received) ↔ e ∈ s.sends.map (·.target) := by
  obtain ⟨rfl, hkept⟩ := verifyAndReport_eq_ok hv
  have hrecord := record?_examine s e
  constructor
  · rintro ⟨d, hd, -⟩
    by_contra hsent
    rw [if_neg hsent] at hrecord
    cases hrecord.symm.trans hd
  · intro hsent
    rw [if_pos hsent] at hrecord
    have hfind : findings t e (s.deliveryTo e) = [] :=
      hkept (e, s.deliveryTo e) (EndpointMap.mem_of_get? hrecord)
    exact ⟨s.deliveryTo e, hrecord, received_pos_of_findings hfind⟩

/-- After a verified run the results have data for the targets that the run got to before it was
stopped, and for those that an earlier run got to, and for no others. -/
theorem verified_received_iff (hg : s.generate pick direction = .ok g) (stop : Option Nat)
    {t : Thresholds} {reported : Option Deliveries}
    (hv : verifyAndReport true t (g.attempt stop).examine.results = .ok reported) (e : Endpoint) :
    (∃ d, reported.bind (·.get? e) = some d ∧ 0 < d.received) ↔
      e ∈ s.sends.map (·.target) ∨ s.plan.failsOnStart = false ∧ e ∈ g.reached stop := by
  have hsends : g.sends = s.sends := by rw [(generate_eq_ok hg).2.2]
  have hplan : g.plan = s.plan := by rw [(generate_eq_ok hg).2.2]
  rw [passing_record_iff hv, sends_attempt, hsends, hplan]
  by_cases hfails : s.plan.failsOnStart
  · simp [hfails]
  · rw [if_neg hfails, List.map_append, List.mem_append, mem_targets_schedule hg]
    simp [hfails]

/-- Two servers, of which the run gets to the first one only: it passes without any data for the
second one. -/
theorem verified_received_cut :
    let setup : Setup :=
      ⟨"upper-tor", "lower-tor", .t1ToServer, .activeStandby, .servers, .ofMillis 1, none⟩
    let servers : List Endpoint := [⟨"192.168.0.2"⟩, ⟨"192.168.0.3"⟩]
    let g : Simulator := { new setup servers 1 .clean with targets := servers }
    ∃ reported, verifyAndReport true (.plain 0 0) (g.attempt (some 1)).examine.results =
        .ok reported ∧
      (∃ d, reported.bind (·.get? ⟨"192.168.0.2"⟩) = some d ∧ 0 < d.received) ∧
      ¬ ∃ d, reported.bind (·.get? ⟨"192.168.0.3"⟩) = some d ∧ 0 < d.received := by
  intro setup servers g
  have hg : (new setup servers 1 .clean).generate id .t1ToServer = .ok g := rfl
  have hpasses : (verifyAndReport true (.plain 0 0)
      (g.attempt (some 1)).examine.results).toBool = true := by decide +kernel
  cases hv : verifyAndReport true (.plain 0 0) (g.attempt (some 1)).examine.results with
  | error why => rw [hv] at hpasses; cases hpasses
  | ok reported =>
    have hiff := verified_received_iff hg (some 1) hv
    exact ⟨reported, rfl, (hiff _).mpr (.inr ⟨rfl, by decide⟩), fun hdata =>
      absurd ((hiff _).mp hdata) (by decide)⟩

end Simulator

end Switchover
