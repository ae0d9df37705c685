import Switchover.Delivery.Capture
import Switchover.Traffic.Direction
import Switchover.Traffic.Duration
import Switchover.Traffic.Plan

/-!
A simulated sender and sniffer. In every round one packet id goes to every target in turn; what the
sniffer captures follows from the plan. The state is the list of packets sent so far, so a run that
is stopped anywhere is a run of fewer packets.
-/
namespace Switchover

/-- What a sender is set up for. -/
structure Setup where
  active : String
  peer : String
  direction : Direction
  cable : Cable
  destination : Destination
  interval : Duration
  randomTarget : Option Bool
  deriving DecidableEq, Repr, Inhabited

/-- One packet handed to the wire. -/
structure Send where
  id : UInt64
  target : Endpoint
  deriving DecidableEq, Repr, Inhabited

/-- A sender and sniffer with its state: the targets of the traffic, the packets sent, and the
results of the last examination. -/
structure Simulator where
  setup : Setup
  servers : List Endpoint
  packets : UInt64
  plan : Plan
  targets : List Endpoint
  sends : List Send
  results : Option Deliveries
  deriving Inhabited

/-- Why the simulator refuses. -/
inductive SimulatorError where
  | noPackets (direction : Direction)
  | noTargets (direction : Direction)
  | captureFailed (active : String)
  deriving DecidableEq, Repr

namespace SimulatorError

/-- The error in words. -/
def message : SimulatorError → String
  | noPackets direction => "traffic pattern for " ++ direction.name ++ " has no packets"
  | noTargets direction => "no destination endpoints for " ++ direction.name ++ " traffic"
  | captureFailed active => "sniffer failed to open capture on " ++ active

end SimulatorError

/-- The place of a port among the servers: a quarter of the number its name ends in. A name without
a number, or with one beyond 64 bits, has place zero. -/
def portIndex (port : String) : Nat :=
  let digits := (port.toList.reverse.takeWhile Char.isDigit).reverse
  match Text.readNumeral (UInt64.size - 1) digits with
  | .ok n => n / 4
  | .error _ => 0

/-- The captures of one packet: the packet itself, and its extra copies spread over the interval to
the next one. -/
def Plan.observe (p : Plan) (interval : Float) (id : UInt64) : List Observation :=
  if p.isLost id then []
  else
    let sentAt := id.toFloat * interval
    let extra := p.extraCopies id
    let copy (k : Nat) : Observation :=
      ⟨id, sentAt + interval * (UInt32.ofNat (k + 1)).toFloat / (extra.toFloat + 1)⟩
    ⟨id, sentAt⟩ :: (List.range extra.toNat).map copy

namespace Simulator

/-- A simulator that has not done anything. -/
def new (setup : Setup) (servers : List Endpoint) (packets : UInt64) (plan : Plan) : Simulator :=
  ⟨setup, servers, packets, plan, [], [], none⟩

/-- The endpoints that traffic in a direction is sent to. Only traffic from above is steered to the
server behind one port. `pick` chooses a place among a number of servers. -/
def chooseTargets (s : Simulator) (pick : Nat → Nat) (direction : Direction) : List Endpoint :=
  match s.setup.destination, direction with
  | .muxPorts ports, _ => ports.map Endpoint.mk
  | .vlanPort port, .t1ToServer | .vlanPort port, .t1ToSoc =>
    (s.servers[min (s.servers.length - 1) (portIndex port)]?).toList
  | .servers, _ =>
    if s.setup.randomTarget = some true then
      (s.servers[pick s.servers.length % s.servers.length]?).toList
    else s.servers
  | _, _ => s.servers

/-- Prepares the traffic for a direction. -/
def generate (s : Simulator) (pick : Nat → Nat) (direction : Direction) :
    Except SimulatorError Simulator :=
  if s.packets = 0 then .error (.noPackets direction)
  else
    let targets := s.chooseTargets pick direction
    if targets.isEmpty then .error (.noTargets direction)
    else .ok { s with targets }

/-- The number of packets of a whole run. -/
def total (s : Simulator) : Nat :=
  s.packets.toNat * s.targets.length

/-- The packet that is sent as number `k` of a run. -/
def sendAt? (s : Simulator) (k : Nat) : Option Send :=
  (s.targets[k % s.targets.length]?).map fun target =>
    ⟨UInt64.ofNat (k / s.targets.length), target⟩

/-- The packets of a run that is stopped before number `stop`, if it is stopped at all. -/
def schedule (s : Simulator) (stop : Option Nat) : List Send :=
  (List.range (min (stop.getD s.total) s.total)).filterMap s.sendAt?

/-- Runs the traffic. Nothing is sent if the capture cannot be opened. -/
def run (s : Simulator) (stop : Option Nat) : Except SimulatorError Simulator :=
  if s.plan.failsOnStart then .error (.captureFailed s.setup.active)
  else .ok { s with sends := s.sends ++ s.schedule stop }

/-- The ids sent to one endpoint, in order. -/
def idsTo (s : Simulator) (e : Endpoint) : List UInt64 :=
  (s.sends.filter (·.target = e)).map (·.id)

/-- What the sniffer captured for one endpoint. -/
def capture (s : Simulator) (e : Endpoint) : List Observation :=
  (s.idsTo e).flatMap (s.plan.observe s.setup.interval.seconds)

/-- The delivery of one endpoint. -/
def deliveryTo (s : Simulator) (e : Endpoint) : Delivery :=
  .ofCapture (UInt64.ofNat (s.idsTo e).length) (s.capture e)

/-- Turns the capture into results for every endpoint that a packet was sent to. -/
def examine (s : Simulator) : Simulator :=
  let endpoints := (s.sends.map (·.target)).eraseDups
  { s with results := some (.ofList (endpoints.map fun e => (e, s.deliveryTo e))) }

end Simulator

end Switchover
