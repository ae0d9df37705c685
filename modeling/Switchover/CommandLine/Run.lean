import Switchover.CommandLine.Command
import Switchover.CommandLine.Table
import Switchover.Delivery.Json
import Switchover.Evidence.Export
import Switchover.Run.Simulation
import Switchover.Settings.Lookup
import Switchover.Testbed.Harness

/-!
Running a command: what it prints, and the failure it ends in. The commands `verify` and `simulate`
are functions of what they read; only looking for the settings, reading results and keeping a
capture touch the machine.
-/
namespace Switchover.CommandLine

open Files (Machine)

/-- What a command prints, and the failure it ends in. -/
structure Outcome where
  printed : String
  trouble : Option Trouble
  deriving DecidableEq, Repr

namespace Outcome

/-- A command that succeeds. -/
def success (printed : String) : Outcome := ⟨printed, none⟩

/-- A command that fails before it prints anything. -/
def failure (why : Trouble) : Outcome := ⟨"", some why⟩

end Outcome

/-! ### Judging saved results -/

namespace VerifyCommand

/-- The saved results in a text. -/
def readResults (path content : String) : Except Trouble Deliveries :=
  match Json.decodeText Deliveries.ofJson content with
  | .ok ds => .ok ds
  | .error (.mismatch m) => .error ⟨["failed to parse results file: " ++ path, m.message]⟩
  | .error .malformed => .error ⟨["failed to parse results file: " ++ path]⟩

/-- What is printed about a report. -/
def print (c : VerifyCommand) (now : String) (r : Report) : String :=
  if c.json then (r.toJson now).indented ++ "\n" else reportText r

/-- Judges the results. A report with failures is printed and fails the command. -/
def judge (c : VerifyCommand) (now : String) (ds : Deliveries) : Outcome :=
  match evaluate c.thresholds.promoted ds with
  | .error e => .failure ⟨[e.message]⟩
  | .ok r =>
    { printed := c.print now r
      trouble :=
        if r.passes then none
        else some ⟨["traffic verification failed with " ++ toString r.failures.length
          ++ " violation(s)"]⟩ }

/-- Judges the results in a text. -/
def judgeText (c : VerifyCommand) (now content : String) : Outcome :=
  match readResults c.results content with
  | .error why => .failure why
  | .ok ds => c.judge now ds

end VerifyCommand

/-! ### Simulating -/

namespace SimulateCommand

/-- The options of the run. -/
def options (c : SimulateCommand) : Options :=
  { Options.unset with
    delay := c.delay
    allowedOutages := c.allowedOutages
    verify := c.verify
    sendInterval := c.sendInterval.map fun ms => .ofMillis ms.toNat
    stopAfter := c.stopAfter.map fun ms => .ofMillis ms.toNat
    randomTarget := if c.randomTarget then some true else none }

/-- The faults of the run. -/
def plan (c : SimulateCommand) : Plan :=
  ⟨c.losses, c.copies, false⟩

/-- The switch pair; traffic goes through the first one. -/
def hosts (c : SimulateCommand) : Host × Host :=
  (.ofAsic "upper-tor" c.asic, .ofAsic "lower-tor" c.asic)

/-- The simulated testbed; `pick` chooses a random target. -/
def testbed (c : SimulateCommand) (pick : Nat → Nat) (settings : Settings) :
    Testbed Simulation where
  hosts := [c.hosts.1, c.hosts.2]
  cable := .activeStandby
  timing :=
    { settings.run with settleDelay := c.settleDelay.getD settings.run.settleDelay }.timing
  sendIntervals := settings.sendIntervals
  driver := Simulation.driver pick
  create setup := .ok (.new (.new setup (c.servers.map Endpoint.mk) c.packets c.plan))

/-- The run around a fault that is always injected. -/
def launch (c : SimulateCommand) (pick : Nat → Nat) (settings : Settings) : Launch Simulation :=
  (c.testbed pick settings).launch c.direction c.hosts.1 c.servers c.options (some (.ok ()))

/-- What is printed about the results. -/
def print (c : SimulateCommand) : Option Deliveries → String
  | none => "No results (verification skipped on virtual DUT)\n"
  | some ds =>
    if c.json then (Deliveries.toJson ds).indented ++ "\n"
    else summaryTable (ds.map fun _ d => Summary.ofDelivery d)

/-- Runs the simulation. -/
def simulate (c : SimulateCommand) (pick : Nat → Nat) (settings : Settings) : Outcome :=
  match (c.launch pick settings).result with
  | none => .failure ⟨["the run did not come to an end"]⟩
  | some (.error e) => .failure ⟨[e.message]⟩
  | some (.ok results) => .success (c.print results)

end SimulateCommand

/-! ### All commands -/

variable {m : Type → Type} [Monad m]

/-- Judges the results in a file. -/
def VerifyCommand.run (c : VerifyCommand) (machine : Machine m) : m Outcome := do
  match ← machine.read c.results with
  | .error e => return .failure ⟨["failed to read results file: " ++ c.results, e.message]⟩
  | .ok content => return c.judgeText (← machine.now) content

/-- Keeps a capture. -/
def SaveCommand.run (c : SaveCommand) (machine : Machine m) (settings : Settings) : m Outcome := do
  let capture := c.capture.getD settings.evidence.capturePath
  match ← Evidence.save machine capture c.log c.test with
  | .error why => return .failure why
  | .ok none => return .success "No capture saved\n"
  | .ok (some path) => return .success ("Capture saved to " ++ path ++ "\n")

/-- Runs a command. -/
def Command.run (command : Command) (machine : Machine m) (pick : Nat → Nat) (settings : Settings) :
    m Outcome :=
  match command with
  | .verify c => c.run machine
  | .simulate c => return c.simulate pick settings
  | .saveCapture c => c.run machine settings
  | .showConfig => return .success settings.render

/-- The settings of an invocation. -/
def Invocation.settings (i : Invocation) (machine : Machine m) : m (Except Trouble Settings) :=
  match i.settingsPath with
  | some path => Settings.load machine path
  | none => return .ok (← Settings.loadOrDefault machine)

/-- Runs an invocation. The settings are read first, whatever the command. -/
def Invocation.run (i : Invocation) (machine : Machine m) (pick : Nat → Nat) : m Outcome := do
  match ← i.settings machine with
  | .error why => return .failure why
  | .ok settings => i.command.run machine pick settings

/-! ### The program -/

/-- What the program leaves behind. -/
structure Answer where
  exitCode : UInt8
  /-- The text on the standard output. -/
  output : String
  /-- The text on the standard error output. -/
  complaint : String
  deriving DecidableEq, Repr

/-- The name and version of the program. -/
def versionLine : String := "dualtor-io 0.1.0\n"

/-- How the program is used. -/
def usage : String :=
  "Usage: dualtor-io [--config <CONFIG>] <COMMAND>\n\nCommands:\n"
    ++ "  verify        Classify a saved test-results JSON file against thresholds\n"
    ++ "  simulate      Run one traffic direction against the in-process simulator\n"
    ++ "  save-capture  Copy the sniffer's packet capture next to a test log\n"
    ++ "  show-config   Print the effective configuration as TOML\n"
    ++ "  help          Print this message\n"

/-- The answer to arguments that amount to no command. -/
def Halt.answer : Halt → Answer
  | help => ⟨0, usage, ""⟩
  | version => ⟨0, versionLine, ""⟩
  | refused => ⟨2, "", usage⟩

/-- The answer after a command. -/
def Outcome.answer (o : Outcome) : Answer :=
  match o.trouble with
  | none => ⟨0, o.printed, ""⟩
  | some why => ⟨1, o.printed, why.lastWords⟩

/-- Runs the program with the given arguments. -/
def answer (machine : Machine m) (pick : Nat → Nat) (args : List String) : m Answer := do
  match read args with
  | .error halt => return halt.answer
  | .ok i => return (← i.run machine pick).answer

end Switchover.CommandLine
