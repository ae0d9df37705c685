import Switchover.Traffic.Direction
import Switchover.Traffic.Duration

/-!
The settings of the harness. Each group has defaults, and a settings file names only what it
changes.
-/
namespace Switchover

/-- The times of a run, in milliseconds. -/
structure RunSettings where
  /-- The pause between the first traffic and the fault. -/
  settleDelay : UInt64
  /-- How often a run that is waited for is looked at. -/
  pollInterval : UInt64
  /-- How long the first traffic may take. -/
  startupTimeout : UInt64
  deriving DecidableEq, Repr

/-- The gap between two packets for each direction, in milliseconds. -/
structure SendIntervals where
  t1ToServer : UInt64
  serverToT1 : UInt64
  socToT1 : UInt64
  t1ToSoc : UInt64
  serverToServer : UInt64
  deriving DecidableEq, Repr

/-- The gap for one direction. -/
def SendIntervals.of (i : SendIntervals) : Direction → Duration
  | .t1ToServer => .ofMillis i.t1ToServer.toNat
  | .serverToT1 => .ofMillis i.serverToT1.toNat
  | .socToT1 => .ofMillis i.socToT1.toNat
  | .t1ToSoc => .ofMillis i.t1ToSoc.toNat
  | .serverToServer => .ofMillis i.serverToServer.toNat

/-- The form of log lines. -/
inductive LogFormat where
  | pretty
  | json
  deriving DecidableEq, Repr

/-- The name of a form in settings files. -/
def LogFormat.name : LogFormat → String
  | pretty => "pretty"
  | json => "json"

/-- What is logged, and how. -/
structure LogSettings where
  level : String
  format : LogFormat
  deriving DecidableEq, Repr

/-- Where the sniffer leaves its capture. -/
structure EvidenceSettings where
  capturePath : String
  deriving DecidableEq, Repr

/-- All settings. -/
structure Settings where
  run : RunSettings
  sendIntervals : SendIntervals
  log : LogSettings
  evidence : EvidenceSettings
  deriving DecidableEq, Repr

/-- The settings without a settings file. -/
def Settings.default : Settings where
  run := ⟨15000, 500, 60000⟩
  sendIntervals := ⟨100, 10, 10, 10, 10⟩
  log := ⟨"info", .pretty⟩
  evidence := ⟨"/tmp/capture.pcap"⟩

instance : Inhabited Settings := ⟨.default⟩

end Switchover
