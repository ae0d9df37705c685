import Switchover.CommandLine.Grammar
import Switchover.CommandLine.Packets
import Switchover.Decimal.Reader
import Switchover.Traffic.Direction
import Switchover.Verdict.Thresholds

/-!
The commands of the program and how they are spelled. Each command has its own options with
defaults; the settings file may be named before or behind the command's name, and the later name
counts.
-/
namespace Switchover.CommandLine

/-- Judging saved results. -/
structure VerifyCommand where
  results : String
  thresholds : Thresholds
  json : Bool

/-- Running one direction against the simulator. -/
structure SimulateCommand where
  direction : Direction
  packets : UInt64
  /-- The gap between two packets in milliseconds, instead of the configured one. -/
  sendInterval : Option UInt64
  losses : List IdRange
  copies : List (UInt64 × UInt32)
  /-- The capture is stopped so many milliseconds after the fault. -/
  stopAfter : Option UInt64
  /-- The pause before the fault in milliseconds, instead of the configured one. -/
  settleDelay : Option UInt64
  /-- The servers named so far; the default ones if this stays empty. -/
  servers : List String
  randomTarget : Bool
  asic : String
  verify : Bool
  delay : Float
  allowedOutages : UInt32
  json : Bool

/-- Keeping a capture. -/
structure SaveCommand where
  test : String
  log : Option String
  capture : Option String

/-- A command with its options. -/
inductive Command where
  | verify (c : VerifyCommand)
  | simulate (c : SimulateCommand)
  | saveCapture (c : SaveCommand)
  | showConfig

/-- A whole command line. -/
structure Invocation where
  /-- The settings file that the caller names. -/
  settingsPath : Option String
  command : Command

/-! ### Values -/

/-- A path, which is never empty. -/
def path? (s : String) : Option String :=
  if s.isEmpty then none else some s

/-- A number of seconds. -/
def seconds? (s : String) : Option Float :=
  Decimal.read? s.toList

/-- A number of 64 bits. -/
def word? (s : String) : Option UInt64 :=
  (Text.readUInt64 s.toList).toOption

/-- A number of 32 bits. Zero may have a minus sign. -/
def count? (s : String) : Option UInt32 :=
  match s.toList with
  | '-' :: ds => if !ds.isEmpty && ds.all (· == '0') then some 0 else none
  | ds => (Text.readUInt32 ds).toOption

/-- A list of names between commas. -/
def names (s : String) : List String :=
  (s.toList.splitOn ',').map String.ofList

/-! ### Options -/

namespace VerifyCommand

/-- The command before its options are read. -/
def start : VerifyCommand := ⟨"", ⟨0, 0, none, false, false⟩, false⟩

/-- Changes the thresholds. -/
def judging (c : VerifyCommand) (f : Thresholds → Thresholds) : VerifyCommand :=
  { c with thresholds := f c.thresholds }

/-- The options of the command. -/
def parameters : List (Parameter VerifyCommand) :=
  [.value "results" path? fun c path => { c with results := path },
   .value "delay" seconds? fun c x => c.judging fun t => { t with delay := x },
   .value "allowed-disruption" count? fun c n => c.judging fun t => { t with allowedOutages := n },
   .value "allowed-duplication" DuplicationAllowance.ofText? fun c a =>
     c.judging fun t => { t with allowedDuplication := some a },
   .flag "allow-disruption-before-traffic" fun c =>
     c.judging fun t => { t with allowMissingBefore := true },
   .flag "merge-duplications" fun c => c.judging fun t => { t with bridging := true },
   .flag "json" fun c => { c with json := true }]

/-- The results have to be named. -/
def finish (c : VerifyCommand) : Option Command :=
  if c.results.isEmpty then none else some (.verify c)

end VerifyCommand

namespace SimulateCommand

/-- The command without options. -/
def start : SimulateCommand where
  direction := .t1ToServer
  packets := 200
  sendInterval := none
  losses := []
  copies := []
  stopAfter := none
  settleDelay := none
  servers := []
  randomTarget := false
  asic := "broadcom"
  verify := false
  delay := 0
  allowedOutages := 0
  json := false

/-- The options of the command. -/
def parameters : List (Parameter SimulateCommand) :=
  [.value "direction" Direction.ofText? fun c d => { c with direction := d },
   .value "packets" word? fun c n => { c with packets := n },
   .value "send-interval-ms" word? fun c n => { c with sendInterval := some n },
   .values "loss" (fun s => (lossRange s).toOption) fun c r => { c with losses := c.losses ++ [r] },
   .values "duplicate" (fun s => (extraCopies s).toOption) fun c e =>
     { c with copies := c.copies ++ [e] },
   .value "stop-after-ms" word? fun c n => { c with stopAfter := some n },
   .value "settle-ms" word? fun c n => { c with settleDelay := some n },
   .values "servers" (fun s => some (names s)) fun c more =>
     { c with servers := c.servers ++ more },
   .flag "random-dst" fun c => { c with randomTarget := true },
   .value "asic-type" some fun c asic => { c with asic },
   .flag "verify" fun c => { c with verify := true },
   .value "delay" seconds? fun c x => { c with delay := x },
   .value "allowed-disruption" count? fun c n => { c with allowedOutages := n },
   .flag "json" fun c => { c with json := true }]

/-- The servers of a simulation that names none. -/
def defaultServers : List String := ["192.168.0.2", "192.168.0.3"]

/-- The command with its servers. -/
def finish (c : SimulateCommand) : Option Command :=
  some (.simulate (if c.servers.isEmpty then { c with servers := defaultServers } else c))

end SimulateCommand

/-- A save command whose test may not be known yet. -/
structure SaveDraft where
  test : Option String
  log : Option String
  capture : Option String

namespace SaveDraft

/-- The options of the command. -/
def parameters : List (Parameter SaveDraft) :=
  [.value "test-name" some fun c test => { c with test := some test },
   .value "log-file" path? fun c path => { c with log := some path },
   .value "capture" path? fun c path => { c with capture := some path }]

/-- The test has to be named. -/
def finish (c : SaveDraft) : Option Command :=
  c.test.map fun test => .saveCapture ⟨test, c.log, c.capture⟩

end SaveDraft

/-! ### Command lines -/

/-- The option for the settings file. -/
def settingsParameter : Parameter (Option String) :=
  .value "config" path? fun _ path => some path

/-- Reads the options of one command, among which the settings file may be named once more. -/
def readCommand {α : Type} (parameters : List (Parameter α)) (start : α)
    (finish : α → Option Command) (settingsPath : Option String) (args : List String) :
    Except Halt Invocation := do
  let lifted : List (Parameter (Option String × α)) :=
    settingsParameter.lift (·.1) (fun b a => (a, b.2))
      :: parameters.map (·.lift (·.2) fun b a => (b.1, a))
  let (settingsPath, draft) ← readAllOptions lifted (settingsPath, start) args
  match finish draft with
  | none => .error .refused
  | some command => return ⟨settingsPath, command⟩

/-- The names of all commands. -/
def commandNames : List String :=
  ["verify", "simulate", "save-capture", "show-config", "help"]

/-- Asking for help about at most one command. -/
def readHelp : List String → Halt
  | [] => .help
  | [name] => if commandNames.contains name then .help else .refused
  | _ => .refused

/-- Reads a whole command line. -/
def read (args : List String) : Except Halt Invocation := do
  let (p, rest) ← readOptions [('h', .help), ('V', .version)]
    [("help", .help), ("version", .version)] [settingsParameter] ⟨none, []⟩ args
  match rest with
  | "verify" :: rest =>
    readCommand VerifyCommand.parameters .start VerifyCommand.finish p.command rest
  | "simulate" :: rest =>
    readCommand SimulateCommand.parameters .start SimulateCommand.finish p.command rest
  | "save-capture" :: rest =>
    readCommand SaveDraft.parameters ⟨none, none, none⟩ SaveDraft.finish p.command rest
  | "show-config" :: rest => readCommand [] () (fun () => some .showConfig) p.command rest
  | "help" :: rest => .error (readHelp rest)
  | _ => .error .refused

end Switchover.CommandLine
