import Switchover.Traffic.Direction
import Switchover.Traffic.Duration
import Switchover.Verdict.Thresholds

/-!
The options of one test run, and which of them a direction honours. An option that the direction
does not honour has no effect on the thresholds.
-/
namespace Switchover

/-- What a caller asks of one run. -/
structure Options where
  /-- The VLAN member port whose server is addressed; all servers without one. -/
  vlanPort : Option String
  delay : Float
  allowedOutages : UInt32
  /-- The results are judged, and a violation fails the run. -/
  verify : Bool
  /-- The gap between two packets, instead of the configured one. -/
  sendInterval : Option Duration
  /-- The capture is stopped this long after the fault. -/
  stopAfter : Option Duration
  allowMissingBefore : Bool
  allowedDuplication : Option DuplicationAllowance
  bridging : Bool
  /-- Traffic towards T1 is sent to one destination picked at random. -/
  randomTarget : Option Bool
  deriving Inhabited

/-- No option set. -/
def Options.unset : Options where
  vlanPort := none
  delay := 0
  allowedOutages := 0
  verify := false
  sendInterval := none
  stopAfter := none
  allowMissingBefore := false
  allowedDuplication := none
  bridging := false
  randomTarget := none

/-- What the judgement of a direction depends on. -/
structure Profile where
  /-- Packets may be allowed to be missing at the start. -/
  honoursMissingBefore : Bool
  /-- The duplication allowance and the bridging of outages are passed on. -/
  honoursDuplication : Bool
  /-- On a virtual switch there is nothing to judge. -/
  skipsVirtual : Bool
  deriving DecidableEq, Repr

namespace Profile

/-- The profile of a direction. -/
def of : Direction → Profile
  | .t1ToServer => ⟨true, true, false⟩
  | .t1ToSoc => ⟨false, true, true⟩
  | .serverToT1 | .socToT1 | .serverToServer => ⟨false, false, true⟩

/-- The thresholds that the options amount to. -/
def thresholds (p : Profile) (o : Options) : Thresholds :=
  Thresholds.promoted
    { allowedOutages := o.allowedOutages
      delay := o.delay
      allowedDuplication := if p.honoursDuplication then o.allowedDuplication else none
      allowMissingBefore := p.honoursMissingBefore && o.allowMissingBefore
      bridging := p.honoursDuplication && o.bridging }

end Profile

end Switchover
