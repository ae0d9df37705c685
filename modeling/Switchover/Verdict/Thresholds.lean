import Switchover.Json.Decode
import Switchover.Json.Printer
import Switchover.Text.Blank

/-!
Thresholds: what a caller still accepts. Besides the number of outages and the length of a single
one they bound how many bursts of duplicates there may be and how often one packet may be repeated.
-/
namespace Switchover

open Json (Value Outline Decoded Form)

/-- The bounds on duplication that a caller gives: on the bursts alone, or also on the copies of one
packet. -/
inductive DuplicationAllowance where
  | bursts (n : UInt32)
  | burstsAndCopies (n m : UInt32)
  deriving DecidableEq, Repr

namespace DuplicationAllowance

/-- The parts of a text between its commas. -/
def parts (s : List Char) : List (List Char) :=
  s.splitOn ','

/-- Reads `N` or `N,M`, with blanks around each number; nothing for any other text. -/
def ofText? (s : String) : Option DuplicationAllowance :=
  let number (part : List Char) : Option UInt32 := (Text.readUInt32 (Text.trim part)).toOption
  match parts s.toList with
  | [n] => (number n).map .bursts
  | [n, m] => do return .burstsAndCopies (← number n) (← number m)
  | _ => none

/-- What is said about a text that is no allowance. -/
def complaint (s : String) : String :=
  "invalid allowed duplication " ++ Text.quoted s ++ ": expected N or N,M"

/-- Reads an allowance, or says what is wrong with the text. -/
def ofText (s : String) : Except String DuplicationAllowance :=
  match ofText? s with
  | some allowance => .ok allowance
  | none => .error (complaint s)

/-- The text that reads back as the allowance. -/
def display : DuplicationAllowance → String
  | bursts n => toString n.toNat
  | burstsAndCopies n m => toString n.toNat ++ "," ++ toString m.toNat

/-- A number, or a list of two. -/
def toJson : DuplicationAllowance → Value
  | bursts n => .int n.toNat
  | burstsAndCopies n m => .list [.int n.toNat, .int m.toNat]

/-- Reads a number or a list of two, with `level` brackets around it. -/
def ofJson (level : Nat) (o : Outline) : Decoded DuplicationAllowance :=
  Json.firstOf "AllowedDuplication" level
    [fun o => o.toUInt32.map .bursts,
     fun o => (o.toPair Outline.toUInt32 Outline.toUInt32).map fun (n, m) => .burstsAndCopies n m] o

end DuplicationAllowance

/-- The limits on duplication in force. -/
structure DuplicationBounds where
  bursts : UInt32
  /-- The most copies of a single packet beyond the one sent. -/
  copies : UInt32
  deriving DecidableEq, Repr

/-- The copies of one packet that are accepted when the caller bounds the bursts alone. -/
def defaultCopies : UInt32 := 2

/-- What one verification accepts. -/
structure Thresholds where
  /-- The most outages. -/
  allowedOutages : UInt32
  /-- The longest single outage or duplication, in seconds. -/
  delay : Float
  /-- Without it, the bound on outages also bounds the bursts. -/
  allowedDuplication : Option DuplicationAllowance
  /-- Packets may be missing at the start of the flow. -/
  allowMissingBefore : Bool
  /-- Outages that duplications bridge count as one. -/
  bridging : Bool
  deriving Inhabited

namespace Thresholds

/-- Thresholds that bound outages only. -/
def plain (allowedOutages : UInt32) (delay : Float) : Thresholds :=
  ⟨allowedOutages, delay, none, false, false⟩

/-- Who accepts a delay accepts at least one outage. -/
def promoted (t : Thresholds) : Thresholds :=
  if t.delay != 0 && t.allowedOutages == 0 then { t with allowedOutages := 1 } else t

/-- The total time that `allowed` windows of length `delay` take. -/
def totalTime (allowed : UInt32) (delay : Float) : Float :=
  allowed.toFloat * delay

/-- The total outage time that is accepted. -/
def budget (t : Thresholds) : Float :=
  totalTime t.allowedOutages t.delay

/-- The limits on duplication in force. -/
def bounds (t : Thresholds) : DuplicationBounds :=
  match t.allowedDuplication with
  | none => ⟨t.allowedOutages, defaultCopies⟩
  | some (.bursts n) => ⟨n, defaultCopies⟩
  | some (.burstsAndCopies n m) => ⟨n, m⟩

/-- A delay is a length of time: finite and not negative. -/
def isValid (t : Thresholds) : Bool :=
  t.delay.isFinite && !(t.delay < 0)

/-- What is said about a delay that is no length of time. -/
def delayComplaint (delay : Float) : String :=
  "invalid delay " ++ Decimal.verbatim.format delay
    ++ ": must be a finite, non-negative number of seconds"

/-- Thresholds as an object. -/
def toJson (t : Thresholds) : Value :=
  .table [("allowed_disruption", .int t.allowedOutages.toNat), ("delay", .real t.delay),
    ("allowed_duplication", .optional DuplicationAllowance.toJson t.allowedDuplication),
    ("allow_disruption_before_traffic", .bool t.allowMissingBefore),
    ("merge_duplications_into_disruptions", .bool t.bridging)]

/-- The fields of thresholds with `level` brackets around them. -/
def form (level : Nat) : Form Thresholds :=
  .lenient "Thresholds"
    ["allowed_disruption", "delay", "allowed_duplication", "allow_disruption_before_traffic",
      "merge_duplications_into_disruptions"] 2 fun t field o =>
    match field with
    | "allowed_disruption" => return { t with allowedOutages := ← o.toUInt32 }
    | "delay" => return { t with delay := ← o.toFloat }
    | "allowed_duplication" =>
      return { t with
        allowedDuplication := ← o.toOptional (DuplicationAllowance.ofJson (level + 1)) }
    | "allow_disruption_before_traffic" => return { t with allowMissingBefore := ← o.toBool }
    | "merge_duplications_into_disruptions" => return { t with bridging := ← o.toBool }
    | _ => return t

/-- Reads thresholds. -/
def ofJson (o : Outline) : Decoded Thresholds :=
  (form 0).decode (plain 0 0) o

end Thresholds

end Switchover
