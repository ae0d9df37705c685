import Mathlib
import Switchover.Proofs.Endpoint.Cut
import Switchover.Proofs.Verdict.Conditions
import Switchover.Proofs.Verdict.Rules

/-!
Reports by endpoint. The failures of a report are a row of segments, one for each endpoint in
natural order. A segment depends on the delivery of its endpoint alone: it names the rules that this
delivery breaks with its outages bridged, if there are any and the thresholds ask for it, each rule
once and in their order. So a change to one delivery changes one segment, and leaves those before
and behind it as they are.
-/
namespace Switchover

/-- Whether sentences about an endpoint name the rules that a delivery breaks: each of them once, in
the order of the rules, and no others. -/
def Names (t : Thresholds) (e : Endpoint) (d : Delivery) (sentences : List String) : Prop :=
  ∃ rules : List Rule, rules.Sublist Rule.all ∧ (∀ rule, rule ∈ rules ↔ rule.Broken t d) ∧
    sentences = rules.map (Rule.message t e (Summary.ofDelivery d))

/-- The figures of an endpoint in a report. -/
def Thresholds.summary (t : Thresholds) (d : Delivery) : Summary :=
  Summary.ofDelivery (d.seenBy t)

/-- The segments of some entries, one behind the other. -/
def segments (t : Thresholds) (entries : List (Endpoint × Delivery)) : List String :=
  entries.flatMap fun (e, d) => findings t e d

namespace Report
variable (t : Thresholds) (ds : Deliveries) (report : Report)

/-- Whether a change to the delivery of one endpoint changes a report in one place. -/
def ChangesAt (e : Endpoint) : Prop :=
  ∃ before behind,
    report.failures = before ++ segments t (ds.own e) ++ behind ∧
    (∀ d, evaluate t (ds.insert e d) = .ok
      { summaries := report.summaries.insert e (t.summary d)
        failures := before ++ findings t e d ++ behind }) ∧
    evaluate t (ds.erase e) = .ok
      { summaries := report.summaries.erase e
        failures := before ++ behind }

/-- Whether a report consists of what there is to say about each endpoint on its own. -/
structure Composes : Prop where
  failures_eq : report.failures = segments t ds.entries
  keys_eq : report.summaries.keys = ds.keys
  get?_eq : ∀ e, report.summaries.get? e = (ds.get? e).map t.summary
  names : ∀ e d, Names t e (d.seenBy t) (findings t e d)
  alone : ∀ e d, evaluate t (EndpointMap.empty.insert e d) = .ok
    { summaries := EndpointMap.empty.insert e (t.summary d)
      failures := findings t e d }
  changesAt : ∀ e, report.ChangesAt t ds e

end Report

/-! ### Segments -/

/-- The segment of an endpoint names the rules broken by its delivery as it is seen. -/
theorem names_findings {t : Thresholds} (ht : t.isValid = true) (e : Endpoint) (d : Delivery) :
    Names t e (d.seenBy t) (findings t e d) := by
  refine ⟨_, List.filter_sublist, fun rule => ?_, findings_eq t e d⟩
  rw [List.mem_filter, and_iff_right rule.mem_all]
  exact isViolated_iff ht rule

theorem segments_append (t : Thresholds) (xs ys : List (Endpoint × Delivery)) :
    segments t (xs ++ ys) = segments t xs ++ segments t ys :=
  List.flatMap_append

theorem segments_cons (t : Thresholds) (e : Endpoint) (d : Delivery)
    (xs : List (Endpoint × Delivery)) :
    segments t ((e, d) :: xs) = findings t e d ++ segments t xs :=
  List.flatMap_cons

/-! ### Reports -/

section Reports
variable {t : Thresholds} (ht : t.isValid = true)
include ht

theorem evaluate_eq (ds : Deliveries) : evaluate t ds = .ok
    { summaries := ds.map fun _ => t.summary
      failures := segments t ds.entries } := by
  rw [evaluate, if_pos ht]
  simp only [judged_eq_seenBy]
  rfl

/-- What is said about an endpoint is what would be said if it were the only one. -/
theorem evaluate_alone (e : Endpoint) (d : Delivery) :
    evaluate t (EndpointMap.empty.insert e d) = .ok
      { summaries := EndpointMap.empty.insert e (t.summary d)
        failures := findings t e d } := by
  rw [evaluate_eq ht, EndpointMap.map_insert]
  exact congrArg (fun l => Except.ok (Report.mk _ l)) (List.append_nil _)

theorem changesAt {ds : Deliveries} (hds : ds.Ordered) (e : Endpoint) :
    Report.ChangesAt t ds ⟨ds.map fun _ => t.summary, segments t ds.entries⟩ e := by
  obtain ⟨front, back, -, -, hentries, hinsert, herase⟩ := EndpointMap.exists_cut hds e
  refine ⟨segments t front, segments t back, ?_, fun d => ?_, ?_⟩
  · rw [hentries, segments_append, segments_append]
  · rw [evaluate_eq ht, EndpointMap.map_insert, hinsert, segments_append, segments_cons,
      List.append_assoc]
  · rw [evaluate_eq ht, EndpointMap.map_erase, herase, segments_append]

/-- A report is put together from the segments of the endpoints, each of which is complete and does
not depend on the other endpoints. The verification ends in this report, and it fails just if one of
the segments says something. -/
theorem evaluate_composes {ds : Deliveries} (hds : ds.Ordered) :
    ∃ report, evaluate t ds = .ok report ∧ report.Composes t ds ∧
      verify t (some ds) =
        if ∀ x ∈ ds.entries, findings t x.1 x.2 = [] then .ok report
        else .error (.failed report) := by
  have hreport := evaluate_eq ht ds
  refine ⟨_, hreport, ⟨rfl, EndpointMap.keys_map .., fun e => EndpointMap.get?_map ..,
    names_findings ht, evaluate_alone ht, changesAt ht hds⟩, ?_⟩
  rw [verify, hreport]
  exact if_congr (List.isEmpty_iff.trans (failures_of_evaluate hreport)) rfl rfl

end Reports

/-- One endpoint keeps the rules. The other one shows two outages and a duplicate: the rules see one
outage where two were reported, which is within the allowed number and too long. -/
theorem evaluate_composes_bridged :
    let t : Thresholds := { Thresholds.plain 1 0.5 with bridging := true }
    let e : Endpoint := ⟨"10.0.0.10"⟩
    let d : Delivery := ⟨10, 7, [⟨1, 3, 0.1, 0.3⟩, ⟨6, 9, 0.6, 0.9⟩], [⟨⟨4, 5, 0.4, 0.5⟩, 1⟩], 0, 0⟩
    let ds : Deliveries := .ofList [(e, d), (⟨"10.0.0.9"⟩, ⟨2, 2, [], [], 0, 0⟩)]
    t.isValid = true ∧ ds.Ordered ∧ (d.seenBy t).outages = [⟨1, 9, 0.1, 0.9⟩] ∧
      ∃ report, evaluate t ds = .ok report ∧ report.Composes t ds ∧
        (report.summaries.get? e).map (·.outages) = some 1 ∧
        report.failures = [Rule.outageTooLong.message t e (t.summary d)] ∧
        verify t (some ds) = .error (.failed report) := by
  intro t e d ds
  have ht : t.isValid = true := by decide
  have hds : ds.Ordered := EndpointMap.ordered_ofList _
  have hentries : ds.entries = [(⟨"10.0.0.9"⟩, ⟨2, 2, [], [], 0, 0⟩), (e, d)] := by cbv
  have hsorted : windowsByTime d.outages d.duplications =
      [⟨⟨1, 3, 0.1, 0.3⟩, true⟩, ⟨⟨4, 5, 0.4, 0.5⟩, false⟩, ⟨⟨6, 9, 0.6, 0.9⟩, true⟩] := by
    have hranks : timeRank 0.1 ≤ timeRank 0.6 ∧ timeRank 0.1 ≤ timeRank 0.4 ∧
        ¬ timeRank 0.6 ≤ timeRank 0.4 := by decide
    simp [windowsByTime, d, List.mergeSort, List.MergeSort.Internal.splitInTwo, hranks]
  have hbridge : bridge d.outages d.duplications = [⟨1, 9, 0.1, 0.9⟩] := by
    rw [bridge, hsorted]
    rfl
  have hseen : d.seenBy t = { d with outages := [⟨1, 9, 0.1, 0.9⟩] } := by
    rw [Delivery.seenBy, if_pos ⟨rfl, by simp [d]⟩, hbridge]
  obtain ⟨report, hreport, hcomposes, hverify⟩ := evaluate_composes ht hds
  have hkept : findings t ⟨"10.0.0.9"⟩ ⟨2, 2, [], [], 0, 0⟩ = [] := by decide
  have hbroken : findings t e d = [Rule.outageTooLong.message t e (t.summary d)] := by
    rw [findings_eq, Thresholds.summary, hseen]
    have hrules : Rule.all.filter (Rule.isViolated t { d with outages := [⟨1, 9, 0.1, 0.9⟩] }
      (Summary.ofDelivery { d with outages := [⟨1, 9, 0.1, 0.9⟩] })) = [.outageTooLong] := by
      decide
    exact congrArg (List.map _) hrules
  have hfailures : report.failures = [Rule.outageTooLong.message t e (t.summary d)] := by
    rw [hcomposes.failures_eq, hentries, segments_cons, segments_cons, hkept, hbroken]
    rfl
  refine ⟨ht, hds, by rw [hseen], report, hreport, hcomposes, ?_, hfailures, ?_⟩
  · have he : ds.get? e = some d := by cbv
    rw [hcomposes.get?_eq, he, Option.map_some, Option.map_some, Thresholds.summary, hseen]
    rfl
  · rw [hverify, if_neg]
    intro hnone
    rw [(failures_of_evaluate hreport).mpr hnone] at hfailures
    cases hfailures

end Switchover
