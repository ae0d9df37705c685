import Switchover.Delivery.Basic

/-!
From a capture to a delivery. A capture lists the packets of one endpoint in the order in which
they arrived; of each sequence id only its first and last capture and their number matter. Between
two received ids with others missing there was an outage, and an id captured twice or more was
duplicated.
-/
namespace Switchover

/-- One captured packet. -/
structure Observation where
  id : UInt64
  time : Float
  deriving Inhabited

/-- All captures of one sequence id. -/
structure Arrival where
  id : UInt64
  first : Float
  last : Float
  copies : UInt32
  deriving Inhabited

namespace Arrival

/-- The arrival that one capture makes. -/
def ofObservation (o : Observation) : Arrival :=
  ⟨o.id, o.time, o.time, 1⟩

/-- One more capture of the same id. -/
def again (a : Arrival) (o : Observation) : Arrival :=
  { a with first := earlier a.first o.time, last := later a.last o.time, copies := a.copies + 1 }

/-- Enters a capture among the arrivals so far, which are listed from the highest id down. A capture
in the order of the ids is then entered in front. -/
def enter (o : Observation) : List Arrival → List Arrival
  | [] => [ofObservation o]
  | a :: rest =>
    if a.id < o.id then ofObservation o :: a :: rest
    else if a.id = o.id then a.again o :: rest
    else a :: enter o rest

/-- The arrivals of the ids below `sent`, from the lowest id up. Other ids belong to other
traffic. -/
def ofCapture (sent : UInt64) (capture : List Observation) : List Arrival :=
  ((capture.filter (·.id < sent)).foldl (fun arrivals o => enter o arrivals) []).reverse

end Arrival

/-- The outages between neighbouring arrivals with at least one id missing in between. -/
def outagesBetween : List Arrival → List Window
  | a :: b :: rest =>
    if a.id + 1 < b.id then ⟨a.id, b.id, a.first, b.first⟩ :: outagesBetween (b :: rest)
    else outagesBetween (b :: rest)
  | _ => []

/-- The duplication that an arrival shows, if it has more than one copy. -/
def Arrival.duplication? (a : Arrival) : Option Duplication :=
  if 1 < a.copies then some ⟨⟨a.id, a.id, a.first, a.last⟩, a.copies - 1⟩ else none

/-- The delivery that a capture of `sent` packets, numbered from zero, shows. -/
def Delivery.ofCapture (sent : UInt64) (capture : List Observation) : Delivery :=
  let arrivals := Arrival.ofCapture sent capture
  { sent
    received := UInt64.ofNat arrivals.length
    outages := outagesBetween arrivals
    duplications := arrivals.filterMap Arrival.duplication?
    missingBefore := (arrivals.head?.map (·.id)).getD 0
    missingAfter := (arrivals.getLast?.map fun a => sent - 1 - a.id).getD 0 }

end Switchover
