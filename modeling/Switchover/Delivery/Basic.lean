import Switchover.Delivery.Window
import Switchover.Endpoint.Map

/-!
Deliveries: what one endpoint received of the packets sent to it, as counts, outages and
duplications.
-/
namespace Switchover

/-- The packets of one endpoint after a run. Packets missing at either edge of the flow are counted
apart from the outages inside it. -/
structure Delivery where
  sent : UInt64
  received : UInt64
  outages : List Window
  duplications : List Duplication
  /-- Packets missing before the first one received. -/
  missingBefore : UInt64
  /-- Packets missing after the last one received. -/
  missingAfter : UInt64
  deriving Inhabited

/-- The delivery in which nothing was sent. -/
def Delivery.nothing : Delivery :=
  ⟨0, 0, [], [], 0, 0⟩

/-- The deliveries of one run, by endpoint. -/
abbrev Deliveries := EndpointMap Delivery

end Switchover
