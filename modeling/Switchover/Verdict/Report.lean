import Switchover.Delivery.Bridge
import Switchover.Verdict.Rule

/-!
Reports: every rule is applied to every endpoint, and all violations are listed, so that one report
suffices to diagnose a run with many servers.
-/
namespace Switchover

open Json (Value)

/-- The outcome of a verification: the figures of each endpoint and one sentence per violation. -/
structure Report where
  summaries : EndpointMap Summary
  failures : List String

namespace Report

/-- Whether no rule was violated. -/
def passes (r : Report) : Bool :=
  r.failures.isEmpty

/-- All failures, each on a line of its own behind a line break. -/
def block (r : Report) : String :=
  String.join (r.failures.map ("\n" ++ ·))

/-- A report with the time at which it was made. -/
def toJson (generatedAt : String) (r : Report) : Value :=
  .table [("summaries", .table (r.summaries.entries.map fun (e, s) => (e.name, s.toJson))),
    ("failures", .list (r.failures.map Value.text)), ("generated_at", .text generatedAt)]

end Report

/-- Why a verification does not end in a passing report. -/
inductive VerdictError where
  | noResults
  | invalidDelay (delay : Float)
  | failed (report : Report)

namespace VerdictError

/-- The error in words. -/
def message : VerdictError → String
  | noResults => "no traffic test results found"
  | invalidDelay delay => Thresholds.delayComplaint delay
  | failed report => "traffic verification failed:" ++ report.block

end VerdictError

/-- The delivery as the rules see it: with bridged outages joined, if the thresholds ask for
that. -/
def Thresholds.judged (t : Thresholds) (d : Delivery) : Delivery :=
  if t.bridging && !d.outages.isEmpty then
    { d with outages := bridge d.outages d.duplications }
  else d

/-- The sentences for all rules that the delivery of one endpoint violates. -/
def findings (t : Thresholds) (e : Endpoint) (d : Delivery) : List String :=
  let d := t.judged d
  let s := Summary.ofDelivery d
  (Rule.all.filter (Rule.isViolated t d s)).map (Rule.message t e s)

/-- The report on all deliveries; only a delay that is no length of time is refused. -/
def evaluate (t : Thresholds) (ds : Deliveries) : Except VerdictError Report :=
  if t.isValid then
    .ok { summaries := ds.map fun _ d => Summary.ofDelivery (t.judged d)
          failures := ds.entries.flatMap fun (e, d) => findings t e d }
  else .error (.invalidDelay t.delay)

/-- The report if it passes. Without results there is nothing to verify. -/
def verify (t : Thresholds) (results : Option Deliveries) : Except VerdictError Report :=
  match results with
  | none => .error .noResults
  | some ds =>
    match evaluate t ds with
    | .error e => .error e
    | .ok report => if report.passes then .ok report else .error (.failed report)

end Switchover
