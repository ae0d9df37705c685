import Switchover.Run.Schedule
import Switchover.Settings.Basic
import Switchover.Traffic.Options
import Switchover.Traffic.Simulator
import Switchover.Verdict.Report

/-!
The testbed as its callers see it: one traffic direction is run around a fault, and the results are
judged with the options that the direction honours.
-/
namespace Switchover

/-- Why a test on the testbed gives no results. -/
inductive HarnessError where
  | testbed (e : TestbedError)
  | run (e : RunError)
  | verdict (e : VerdictError)

namespace HarnessError

/-- The error in words. -/
def message : HarnessError → String
  | testbed e => e.message
  | run e => e.message
  | verdict e => e.message

end HarnessError

/-- A switch pair, the settings of its runs, and a maker of drivers with states of type `σ`. -/
structure Testbed (σ : Type) where
  hosts : List Host
  cable : Cable
  timing : Timing
  sendIntervals : SendIntervals
  driver : Driver σ
  create : Setup → Except Trouble σ

/-- The times of a run as the settings give them. -/
def RunSettings.timing (s : RunSettings) : Timing :=
  ⟨.ofMillis s.settleDelay.toNat, .ofMillis s.pollInterval.toNat, .ofMillis s.startupTimeout.toNat⟩

/-- What became of one test. -/
structure Launch (σ : Type) where
  /-- What a driver was asked for, if the test got that far. -/
  setup : Option Setup
  /-- How often the fault had been injected when the run came to its end. -/
  injections : Nat
  /-- The run, if it ended without an error. -/
  finished : Option (Finished σ)
  /-- The results or the reason why there are none; nothing if the run never ends. -/
  result : Option (Except HarnessError (Option Deliveries))

/-- Judges the results if asked to, and hands them back. -/
def verifyAndReport (wanted : Bool) (t : Thresholds) (results : Option Deliveries) :
    Except VerdictError (Option Deliveries) :=
  if wanted then
    match verify t results with
    | .error e => .error e
    | .ok _ => .ok results
  else .ok results

/-- Where the options send the traffic of a direction. Between servers it goes to mux ports. -/
def Options.destination (o : Options) (muxPorts : List String) : Direction → Destination
  | .serverToServer => .muxPorts muxPorts
  | _ =>
    match o.vlanPort with
    | some port => .vlanPort port
    | none => .servers

/-- A random target is a matter of the traffic from the servers towards T1 alone. -/
def Options.randomTargetFor (o : Options) : Direction → Option Bool
  | .serverToT1 => o.randomTarget
  | _ => none

namespace Testbed

variable {σ : Type}

/-- What a driver is set up for. -/
def setup (t : Testbed σ) (direction : Direction) (active peer : Host) (muxPorts : List String)
    (o : Options) : Setup :=
  { active := active.name
    peer := peer.name
    direction
    cable := t.cable
    destination := o.destination muxPorts direction
    interval := o.sendInterval.getD (t.sendIntervals.of direction)
    randomTarget := o.randomTargetFor direction }

/-- The results of a finished run, judged as the direction wants it. On a virtual switch most
directions give none. -/
def conclude (t : Testbed σ) (direction : Direction) (active : Host) (o : Options)
    (f : Finished σ) : Except HarnessError (Option Deliveries) :=
  let profile := Profile.of direction
  if profile.skipsVirtual && active.isVirtual then .ok none
  else
    match verifyAndReport o.verify (profile.thresholds o) (t.driver.results f.driver) with
    | .error e => .error (.verdict e)
    | .ok results => .ok results

/-- What the run of a test is asked to do. -/
def request (t : Testbed σ) (direction : Direction) (active : Host) (o : Options)
    (fault : Option (Except Trouble Unit)) : Request :=
  ⟨active, direction, fault, o.stopAfter, t.timing⟩

/-- What becomes of a test if `lead` says where its run leads from a request and the driver's first
state. -/
def launchBy (t : Testbed σ) (lead : Request → σ → Config σ) (direction : Direction)
    (active : Host) (muxPorts : List String) (o : Options)
    (fault : Option (Except Trouble Unit)) : Launch σ :=
  match peerOf t.hosts active with
  | .error e => ⟨none, 0, none, some (.error (.testbed e))⟩
  | .ok peer =>
    let setup := t.setup direction active peer muxPorts o
    match t.create setup with
    | .error why => ⟨some setup, 0, none, some (.error (.run (.setup why)))⟩
    | .ok state =>
      let final := lead (t.request direction active o fault) state
      match final.outcome? with
      | none => ⟨some setup, final.injections, none, none⟩
      | some (.error e) => ⟨some setup, final.injections, none, some (.error (.run e))⟩
      | some (.ok f) =>
        ⟨some setup, final.injections, some f, some (t.conclude direction active o f)⟩

/-- Runs traffic in one direction around a fault. -/
def launch (t : Testbed σ) (direction : Direction) (active : Host) (muxPorts : List String)
    (o : Options) (fault : Option (Except Trouble Unit)) : Launch σ :=
  t.launchBy t.driver.conduct direction active muxPorts o fault

end Testbed

end Switchover
