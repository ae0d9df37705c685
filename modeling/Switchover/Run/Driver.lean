import Switchover.Delivery.Basic
import Switchover.Traffic.Direction
import Switchover.Traffic.Duration
import Switchover.Trouble

/-!
What a run needs of a packet generator and sniffer. Its capture is the work of a worker that acts
whenever it gets its turn: it looks at what it can see of the run and makes a move. Between two
moves it may wait for a time to pass or for something it sees to change; it is never stopped from
outside. The flag that asks it to end is in its own hands as well, so it can set that itself.
-/
namespace Switchover

/-- What a worker can see of the run. -/
structure Sight where
  /-- The run wants the capture to end. -/
  cancelled : Bool
  /-- The nanoseconds since the capture began. -/
  elapsed : Nat
  /-- How often the fault has been injected. -/
  injections : Nat
  deriving DecidableEq, Repr

/-- What a worker does at its turn. -/
inductive Move (σ : Type) where
  /-- Waits until something changes, or until the given time since the capture began. -/
  | wait (until? : Option Nat)
  /-- Reports that traffic flows. -/
  | report (state : σ)
  /-- Sets the cancellation flag, and goes on. -/
  | cancel (state : σ)
  /-- Ends the capture. -/
  | finish (state : σ)
  /-- Ends the capture with a failure. -/
  | fail (why : Trouble)
  /-- Dies. -/
  | crash

/-- A packet generator and sniffer with states of type `σ`. -/
structure Driver (σ : Type) where
  /-- Prepares traffic in a direction. -/
  generate : Direction → σ → Except Trouble σ
  /-- The next move of the capture. -/
  act : Sight → σ → Move σ
  /-- Turns what was captured into results. -/
  examine : σ → Except Trouble σ
  results : σ → Option Deliveries

end Switchover
