import Switchover.Decimal.Notation
import Switchover.Verdict.Summary
import Switchover.Verdict.Thresholds

/-!
The eight rules of a verification. Each is violated or kept by an endpoint on its own, and each
violation has one sentence.
-/
namespace Switchover

/-- The rules in the order in which their violations are reported. -/
inductive Rule where
  | nothingReceived
  | tooManyOutages
  | outageTooLong
  | tooManyBursts
  | tooManyCopies
  | duplicationTooLong
  | missingBefore
  | missingAfter
  deriving DecidableEq, Repr

namespace Rule

/-- All rules, in their order. -/
def all : List Rule :=
  [nothingReceived, tooManyOutages, outageTooLong, tooManyBursts, tooManyCopies, duplicationTooLong,
    missingBefore, missingAfter]

end Rule

/-- Whether the windows together take longer than the caller accepts. -/
def exceedsBudget (ws : List Window) (allowed : UInt32) (delay : Float) : Bool :=
  Thresholds.totalTime allowed delay < totalDuration ws

/-- Whether the delivery breaks a rule. A single long window is tolerated as long as all windows
together stay within the budget. -/
def Rule.isViolated (t : Thresholds) (d : Delivery) (s : Summary) : Rule → Bool
  | nothingReceived => s.received == 0
  | tooManyOutages => t.allowedOutages.toNat < s.outages
  | outageTooLong => t.delay < s.longestOutage && exceedsBudget d.outages t.allowedOutages t.delay
  | tooManyBursts => t.bounds.bursts.toNat < s.bursts
  | tooManyCopies => t.bounds.copies < s.mostCopies
  | duplicationTooLong =>
    t.delay < s.longestDuplication
      && exceedsBudget (d.duplications.map (·.window)) t.allowedOutages t.delay
  | missingBefore => !t.allowMissingBefore && 0 < s.missingBefore
  | missingAfter => 0 < s.missingAfter

/-- A time in a report. -/
def seconds (x : Float) : String :=
  Decimal.measured.format x ++ "s"

/-- The sentence for a violated rule. -/
def Rule.message (t : Thresholds) (e : Endpoint) (s : Summary) : Rule → String
  | nothingReceived =>
    "Test failed to capture any meaningful received packets for server " ++ e.name
  | tooManyOutages =>
    "Traffic to server " ++ e.name ++ " was disrupted " ++ toString s.outages
      ++ " times. Allowed number of disruptions: " ++ toString t.allowedOutages.toNat
  | outageTooLong =>
    "Traffic on server " ++ e.name ++ " was disrupted for " ++ seconds s.longestOutage
      ++ ". Maximum allowed disruption: " ++ seconds t.delay
  | tooManyBursts =>
    "Traffic to server " ++ e.name ++ " was duplicated " ++ toString s.bursts
      ++ " times. Allowed number of duplications: " ++ toString t.bounds.bursts.toNat
  | tooManyCopies =>
    "Traffic on server " ++ e.name ++ " with packet id "
      ++ (match s.mostCopiesId with
          | some id => toString id.toNat
          | none => "unknown")
      ++ " has " ++ toString s.mostCopies.toNat
      ++ " duplications. Allowed max number of duplication count: "
      ++ toString t.bounds.copies.toNat
  | duplicationTooLong =>
    "Traffic on server " ++ e.name ++ " was duplicated for " ++ seconds s.longestDuplication
      ++ ". Maximum allowed duplication: " ++ seconds t.delay
  | missingBefore =>
    "Traffic on server " ++ e.name ++ " was disrupted prior to test start, missing "
      ++ toString s.missingBefore.toNat ++ " packets from the start of the packet flow"
  | missingAfter =>
    "Traffic on server " ++ e.name ++ " was disrupted after test end, missing "
      ++ toString s.missingAfter.toNat ++ " packets from the end of the packet flow"

end Switchover
