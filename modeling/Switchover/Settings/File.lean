import Switchover.Settings.Basic
import Switchover.Toml.Printer
import Switchover.Toml.Reader

/-!
Settings files. Every section and every key may be absent, unknown ones are skipped, and a section
may also be given as a list of its values in order. A file that is no TOML, or has a value of the
wrong kind under a known key, gives no settings at all.
-/
namespace Switchover

open Toml (Node Entries)

namespace Settings

/-- A number of milliseconds. -/
def millis? : Node → Option UInt64
  | .int n => if 0 ≤ n then some (UInt64.ofNat n.toNat) else none
  | _ => none

/-- A string. -/
def text? : Node → Option String
  | .text s => some s
  | _ => none

/-- Whether a node holds nothing, as the value beside a word has to. -/
def isVoid : Node → Bool
  | .list items => items.isEmpty
  | .table _ entries => entries.isEmpty
  | .tables items => items.isEmpty
  | _ => false

/-- The form of log lines: its name, or a table with the name as its only key. -/
def logFormat? : Node → Option LogFormat
  | .text s => named s
  | .table _ [(k, node)] => do
    let format ← named k
    if isVoid node then some format else none
  | _ => none
where
  named (s : String) : Option LogFormat :=
    [LogFormat.pretty, .json].find? fun f => f.name == s

/-- Reads a section into `start`. A date is a table without any key of ours. -/
def readGroup? {α : Type} (fields : List String) (accept : α → String → Node → Option α)
    (start : α) : Node → Option α
  | .table _ entries => fill entries
  | .list items => fill (fields.zip items)
  | .tables items =>
    fill (fields.zip (items.map fun entries => .table .headed entries))
  | .moment => some start
  | _ => none
where
  fill (entries : List (String × Node)) : Option α :=
    entries.foldlM (fun a (k, node) => if k ∈ fields then accept a k node else some a) start

/-- Reads the times of a run. -/
def run? : Node → Option RunSettings :=
  readGroup? ["settle_delay_ms", "drain_poll_interval_ms", "startup_timeout_ms"]
    (fun (s : RunSettings) k node =>
      match k with
      | "settle_delay_ms" => do return { s with settleDelay := ← millis? node }
      | "drain_poll_interval_ms" => do return { s with pollInterval := ← millis? node }
      | _ => do return { s with startupTimeout := ← millis? node })
    Settings.default.run

/-- Reads the gaps between packets. -/
def sendIntervals? : Node → Option SendIntervals :=
  readGroup? (Direction.all.map Direction.name)
    (fun (i : SendIntervals) k node =>
      match k with
      | "t1_to_server" => do return { i with t1ToServer := ← millis? node }
      | "server_to_t1" => do return { i with serverToT1 := ← millis? node }
      | "soc_to_t1" => do return { i with socToT1 := ← millis? node }
      | "t1_to_soc" => do return { i with t1ToSoc := ← millis? node }
      | _ => do return { i with serverToServer := ← millis? node })
    Settings.default.sendIntervals

/-- Reads what is logged. -/
def log? : Node → Option LogSettings :=
  readGroup? ["level", "format"]
    (fun (s : LogSettings) k node =>
      match k with
      | "level" => do return { s with level := ← text? node }
      | _ => do return { s with format := ← logFormat? node })
    Settings.default.log

/-- Reads where the capture is. -/
def evidence? : Node → Option EvidenceSettings :=
  readGroup? ["capture_path"]
    (fun (s : EvidenceSettings) _ node => do return { s with capturePath := ← text? node })
    Settings.default.evidence

/-- Reads all sections. -/
def ofEntries? (entries : Entries) : Option Settings :=
  entries.foldlM (fun (s : Settings) (k, node) =>
    match k with
    | "io" => do return { s with run := ← run? node }
    | "send_interval_ms" => do return { s with sendIntervals := ← sendIntervals? node }
    | "logging" => do return { s with log := ← log? node }
    | "evidence" => do return { s with evidence := ← evidence? node }
    | _ => some s) .default

/-- Reads the text of a settings file. -/
def ofText? (s : String) : Option Settings := do
  ofEntries? (← Toml.read? s)

/-- The sections of the settings, all keys included. -/
def sections (s : Settings) : List Toml.Section :=
  [⟨"io", [("settle_delay_ms", .nat s.run.settleDelay.toNat),
      ("drain_poll_interval_ms", .nat s.run.pollInterval.toNat),
      ("startup_timeout_ms", .nat s.run.startupTimeout.toNat)]⟩,
   ⟨"send_interval_ms", [("t1_to_server", .nat s.sendIntervals.t1ToServer.toNat),
      ("server_to_t1", .nat s.sendIntervals.serverToT1.toNat),
      ("soc_to_t1", .nat s.sendIntervals.socToT1.toNat),
      ("t1_to_soc", .nat s.sendIntervals.t1ToSoc.toNat),
      ("server_to_server", .nat s.sendIntervals.serverToServer.toNat)]⟩,
   ⟨"logging", [("level", .text s.log.level), ("format", .text s.log.format.name)]⟩,
   ⟨"evidence", [("capture_path", .text s.evidence.capturePath)]⟩]

/-- The text of a settings file with these settings. -/
def render (s : Settings) : String :=
  Toml.render s.sections

end Settings

end Switchover
