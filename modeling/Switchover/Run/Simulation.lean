import Switchover.Run.Driver
import Switchover.Traffic.Simulator

/-!
The simulator as the driver of a run. It reports traffic at once and then sends one round of
packets per interval, so the time at which it is cancelled tells how many rounds were sent.
-/
namespace Switchover

/-- A simulator at work, and whether it has reported traffic. -/
structure Simulation where
  simulator : Simulator
  reported : Bool
  deriving Inhabited

/-- A simulator error as the failure of a run. -/
def SimulatorError.trouble (e : SimulatorError) : Trouble :=
  ⟨[e.message]⟩

namespace Simulation

/-- A simulation that has not begun. -/
def new (simulator : Simulator) : Simulation := ⟨simulator, false⟩

/-- The nanoseconds that all rounds take. -/
def length (s : Simulator) : Nat :=
  s.packets.toNat * s.setup.interval.nanos

/-- The rounds begun within some nanoseconds. -/
def roundsWithin (s : Simulator) (nanos : Nat) : Nat :=
  if s.setup.interval.nanos = 0 then s.packets.toNat
  else min s.packets.toNat (nanos / s.setup.interval.nanos + 1)

/-- Ends the traffic, after the given number of packets or after all. -/
def conclude (s : Simulation) (stop : Option Nat) : Move Simulation :=
  match s.simulator.run stop with
  | .error e => .fail e.trouble
  | .ok simulator => .finish { s with simulator }

/-- The simulator as a driver; `pick` chooses a random target. -/
def driver (pick : Nat → Nat) : Driver Simulation where
  generate direction s :=
    match s.simulator.generate pick direction with
    | .error e => .error e.trouble
    | .ok simulator => .ok { s with simulator }
  act sight s :=
    if s.simulator.plan.failsOnStart then s.conclude none
    else if !s.reported then .report { s with reported := true }
    else if length s.simulator ≤ sight.elapsed then s.conclude none
    else if sight.cancelled then
      s.conclude (some (roundsWithin s.simulator sight.elapsed * s.simulator.targets.length))
    else .wait (some (length s.simulator))
  examine s := .ok { s with simulator := s.simulator.examine }
  results s := s.simulator.results

end Simulation

end Switchover
