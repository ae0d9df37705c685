import Switchover.Delivery.Basic
import Switchover.Json.Value

/-!
Summaries: the figures of one delivery that the rules look at. Duplications whose ids follow one
another form a burst.
-/
namespace Switchover

open Json (Value)

/-- The figures of one endpoint. -/
structure Summary where
  received : UInt64
  /-- The packets received beyond those sent, negative for a loss. -/
  surplus : Int64
  outages : Nat
  longestOutage : Float
  bursts : Nat
  longestDuplication : Float
  /-- The most copies of one packet, and the first packet with so many. -/
  mostCopies : UInt32
  mostCopiesId : Option UInt64
  missingBefore : UInt64
  missingAfter : UInt64

/-- The length of the longest window, zero if none is longer. -/
def longest (ws : List Window) : Float :=
  (ws.map Window.duration).foldl later 0

/-- The most copies among the duplications and the first id that has them. -/
def worstDuplication (ds : List Duplication) : UInt32 × Option UInt64 :=
  ds.foldl (fun best d => if best.1 < d.excess then (d.excess, some d.window.startId) else best)
    (0, none)

/-- The bursts among the duplications from place `index` on, behind one with the key `previous`. The
place less the id stays the same exactly as long as the ids climb by one. -/
def burstsFrom (index : Nat) (previous : Option Int) : List Duplication → Nat
  | [] => 0
  | d :: rest =>
    let key : Int := index - (d.window.startId.toNat : Int)
    (if previous = some key then 0 else 1) + burstsFrom (index + 1) (some key) rest

/-- The number of bursts. -/
def countBursts (ds : List Duplication) : Nat :=
  burstsFrom 0 none ds

/-- The lengths of all windows together. -/
def totalDuration (ws : List Window) : Float :=
  (ws.map Window.duration).foldl (· + ·) 0

namespace Summary

/-- The figures of a delivery. The surplus wraps around at the ends of 64 bits, as it does in a
build without overflow checks. -/
def ofDelivery (d : Delivery) : Summary :=
  let most := worstDuplication d.duplications
  { received := d.received
    surplus := d.received.toInt64 - d.sent.toInt64
    outages := d.outages.length
    longestOutage := longest d.outages
    bursts := countBursts d.duplications
    longestDuplication := longest (d.duplications.map (·.window))
    mostCopies := most.1
    mostCopiesId := most.2
    missingBefore := d.missingBefore
    missingAfter := d.missingAfter }

/-- A summary as an object. -/
def toJson (s : Summary) : Value :=
  .table [("received_packets", .word s.received), ("received_packet_diff", .int s.surplus.toInt),
    ("total_disruptions", .nat s.outages), ("longest_disruption", .real s.longestOutage),
    ("total_duplications", .nat s.bursts), ("longest_duplication", .real s.longestDuplication),
    ("largest_duplication_count", .int s.mostCopies.toNat),
    ("largest_duplication_packet_id", .optional Value.word s.mostCopiesId),
    ("disruption_before_traffic", .word s.missingBefore),
    ("disruption_after_traffic", .word s.missingAfter)]

end Summary

end Switchover
