import Switchover.Run.Driver
import Switchover.Testbed.Host

/-!
One run: traffic is started, a fault is injected once it flows, and the capture is joined and
examined. Two parties take turns in any order, the worker that captures and the coordinator that
leads the run, while a clock goes on; `step` is one turn of one of them.

The coordinator passes through these phases:

    starting ─▶ awaiting ─▶ settling ─▶ draining ─▶ joining ─▶ examining ─▶ done

It joins the worker on every way out once the worker has been started. The cancellation flag is the
only way to end a capture early, and the worker alone decides when to heed it. Both parties can set
the flag; the coordinator never reads it.
-/
namespace Switchover

/-- The times that govern a run. -/
structure Timing where
  /-- The pause between the first traffic and the fault. -/
  settle : Duration
  /-- How often the worker is looked at while it is waited for. -/
  poll : Duration
  /-- How long the worker may take to report traffic. -/
  startup : Duration
  deriving DecidableEq, Repr

/-- The time between two looks at the worker, at least a millisecond. -/
def Timing.period (t : Timing) : Nat :=
  max t.poll.nanos 1000000

/-- What a run is asked to do. -/
structure Request where
  active : Host
  direction : Direction
  /-- The outcome of injecting the fault, if one is injected. -/
  fault : Option (Except Trouble Unit)
  /-- The capture is stopped this long after the fault. -/
  stopAfter : Option Duration
  timing : Timing

/-- Why a run gives no capture. -/
inductive RunError where
  | setup (why : Trouble)
  | startupTimeout (limit : Duration)
  | notReady
  | action (why : Trouble)
  | capture (why : Trouble)
  | workerCrashed
  | flowExamination (why : Trouble)
  deriving DecidableEq, Repr

namespace RunError

/-- The error in words. -/
def message : RunError → String
  | setup why => "failed to set up IO test: " ++ why.message
  | startupTimeout limit => "sender/sniffer did not report ready within " ++ limit.display
  | notReady => "sender/sniffer exited without reporting ready"
  | action why => "fault-injection action failed: " ++ why.message
  | capture why => "sender/sniffer failed: " ++ why.message
  | workerCrashed => "sender/sniffer worker panicked"
  | flowExamination why => "flow examination failed: " ++ why.message

end RunError

/-- A run that came to its end. -/
structure Finished (σ : Type) where
  driver : σ
  /-- The capture was cut short after the time it was given. -/
  stoppedEarly : Bool
  /-- The capture was examined. -/
  examined : Bool

/-- How a worker's capture ended. -/
inductive WorkerEnd where
  | finished
  | failed (why : Trouble)
  | crashed
  deriving DecidableEq, Repr

/-- Where the worker is. -/
inductive WorkerStatus where
  | idle
  | running
  | ended (how : WorkerEnd)
  deriving DecidableEq, Repr

/-- Why the coordinator joins the worker. -/
inductive JoinReason where
  /-- The worker ended without reporting traffic. -/
  | released
  /-- No traffic was reported in time. -/
  | expired
  | faultFailed (why : Trouble)
  /-- The run is over, after the given time or by itself. -/
  | over (stoppedEarly : Bool)
  deriving DecidableEq, Repr

/-- Where the coordinator is. -/
inductive Phase (σ : Type) where
  | starting
  /-- Waits for the report of traffic. -/
  | awaiting (deadline : Nat)
  /-- Lets the traffic settle before the fault. -/
  | settling (faultAt : Nat)
  /-- Gives the worker time to finish, behind a number of looks at it. -/
  | draining (since : Nat) (window : Nat) (looks : Nat)
  | joining (reason : JoinReason)
  | examining (stoppedEarly : Bool)
  | done (outcome : Except RunError (Finished σ))

/-- What happens in a run. -/
inductive Event where
  | generate (direction : Direction)
  | start
  | ready
  | inject
  /-- The coordinator cancels the capture. -/
  | cancel
  /-- The worker cancels its own capture. -/
  | selfCancel
  | exit (sawCancel : Bool)
  | crash
  | join
  | examine
  deriving DecidableEq, Repr

/-- The state of a run. -/
structure Config (σ : Type) where
  now : Nat
  phase : Phase σ
  worker : WorkerStatus
  /-- When the worker was started. -/
  startedAt : Nat
  /-- The worker has reported traffic. -/
  ready : Bool
  cancelled : Bool
  driver : σ
  /-- What has happened, the latest last. -/
  trace : List Event

namespace Config

variable {σ : Type}

/-- A run that has not begun. -/
def initial (driver : σ) : Config σ :=
  { now := 0, phase := .starting, worker := .idle, startedAt := 0, ready := false,
    cancelled := false, driver, trace := [] }

/-- Notes an event. -/
def note (c : Config σ) (e : Event) : Config σ :=
  { c with trace := c.trace ++ [e] }

/-- Asks the worker to end. The flag is never taken back. -/
def cancel (c : Config σ) : Config σ :=
  { c.note .cancel with cancelled := true }

/-- Goes on with another phase. -/
def enter (c : Config σ) (phase : Phase σ) : Config σ :=
  { c with phase }

/-- How often the fault was injected. -/
def injections (c : Config σ) : Nat :=
  c.trace.count .inject

/-- What the worker sees. -/
def sight (c : Config σ) : Sight :=
  ⟨c.cancelled, c.now - c.startedAt, c.injections⟩

/-- The worker's turn. -/
def workerStep (d : Driver σ) (c : Config σ) : Config σ :=
  match c.worker with
  | .running =>
    match d.act c.sight c.driver with
    | .wait _ => c
    | .report driver => { c.note .ready with ready := true, driver }
    | .cancel driver => { c.note .selfCancel with cancelled := true, driver }
    | .finish driver => { c.note (.exit c.cancelled) with worker := .ended .finished, driver }
    | .fail why => { c.note (.exit c.cancelled) with worker := .ended (.failed why) }
    | .crash => { c.note .crash with worker := .ended .crashed }
  | _ => c

/-- After the fault, or without one: the worker gets its time, or is joined as it is. -/
def afterFault (r : Request) (c : Config σ) : Config σ :=
  match r.stopAfter with
  | some window => c.enter (.draining c.now window.nanos 0)
  | none => c.enter (.joining (.over false))

/-- Injects the fault. If that fails the capture is cancelled. -/
def inject (r : Request) (c : Config σ) : Config σ :=
  match r.fault with
  | none => c.afterFault r
  | some (.ok ()) => (c.note .inject).afterFault r
  | some (.error why) => (c.note .inject).cancel.enter (.joining (.faultFailed why))

/-- Once traffic flows. -/
def afterReady (r : Request) (c : Config σ) : Config σ :=
  match r.fault with
  | some _ => c.enter (.settling (c.now + r.timing.settle.nanos))
  | none => c.afterFault r

/-- The time of the next look at the worker. The first two looks are made at once. -/
def nextLook (r : Request) (since looks : Nat) : Nat :=
  since + (looks - 1) * r.timing.period

/-- The end of a run whose worker has been joined. -/
def settleJoin (r : Request) (how : WorkerEnd) : JoinReason → Phase σ
  | .released =>
    match how with
    | .crashed => .done (.error .workerCrashed)
    | .failed why => .done (.error (.capture why))
    | .finished => .done (.error .notReady)
  | .expired => .done (.error (.startupTimeout r.timing.startup))
  | .faultFailed why => .done (.error (.action why))
  | .over stoppedEarly =>
    match how with
    | .crashed => .done (.error .workerCrashed)
    | .failed why => .done (.error (.capture why))
    | .finished => .examining stoppedEarly

/-- Whether the worker has ended, and how. -/
def ended? (c : Config σ) : Option WorkerEnd :=
  match c.worker with
  | .ended how => some how
  | _ => none

/-- The coordinator's turn. It stays in its phase if that waits for something. -/
def coordinatorStep (d : Driver σ) (r : Request) (c : Config σ) : Config σ :=
  match c.phase with
  | .starting =>
    let c := c.note (.generate r.direction)
    match d.generate r.direction c.driver with
    | .error why => c.enter (.done (.error (.setup why)))
    | .ok driver =>
      { c.note .start with
        driver, worker := .running, startedAt := c.now,
        phase := .awaiting (c.now + r.timing.startup.nanos) }
  | .awaiting deadline =>
    if c.ready then c.afterReady r
    else if c.ended?.isSome then c.enter (.joining .released)
    else if deadline ≤ c.now then c.cancel.enter (.joining .expired)
    else c
  | .settling faultAt => if faultAt ≤ c.now then c.inject r else c
  | .draining since window looks =>
    if nextLook r since looks ≤ c.now then
      if c.ended?.isSome then c.enter (.joining (.over false))
      else if since + window ≤ c.now then c.cancel.enter (.joining (.over true))
      else c.enter (.draining since window (looks + 1))
    else c
  | .joining reason =>
    match c.ended? with
    | some how => (c.note .join).enter (settleJoin r how reason)
    | none => c
  | .examining stoppedEarly =>
    if r.active.isVirtual then c.enter (.done (.ok ⟨c.driver, stoppedEarly, false⟩))
    else
      let c := c.note .examine
      match d.examine c.driver with
      | .error why => c.enter (.done (.error (.flowExamination why)))
      | .ok driver => { c with driver }.enter (.done (.ok ⟨driver, stoppedEarly, true⟩))
  | .done _ => c

end Config

/-- Whose turn it is, or how far the clock goes on. -/
inductive Turn where
  | worker
  | coordinator
  | clock (nanos : Nat)
  deriving DecidableEq, Repr

/-- One turn of a run. -/
def Config.step {σ : Type} (d : Driver σ) (r : Request) (c : Config σ) : Turn → Config σ
  | .worker => c.workerStep d
  | .coordinator => c.coordinatorStep d r
  | .clock nanos => { c with now := c.now + nanos }

/-- A run in which the turns are taken in the given order. -/
def Config.run {σ : Type} (d : Driver σ) (r : Request) (c : Config σ) (turns : List Turn) :
    Config σ :=
  turns.foldl (fun c turn => c.step d r turn) c

end Switchover
