import Switchover.Decimal.Binary

/-!
Lengths of time in whole nanoseconds.
-/
namespace Switchover

/-- A length of time. -/
structure Duration where
  nanos : Nat
  deriving DecidableEq, Repr, Inhabited

namespace Duration

/-- Whole microseconds. -/
def ofMicros (n : Nat) : Duration := ⟨1000 * n⟩

/-- Whole milliseconds. -/
def ofMillis (n : Nat) : Duration := ⟨1000000 * n⟩

/-- One second in nanoseconds. -/
def second : Nat := 1000000000

/-- The length in seconds: the whole seconds and the fraction are rounded apart from each other. -/
def seconds (d : Duration) : Float :=
  (UInt64.ofNat (d.nanos / second)).toFloat
    + (UInt64.ofNat (d.nanos % second)).toFloat / (UInt64.ofNat second).toFloat

/-- `n` units of `10 ^ places` parts, with no more places than needed. -/
def inUnits (places : Nat) (n : Nat) (unit : String) : String :=
  let part := Nat.toDigits 10 (n % Nat.pow 10 places)
  let padded := List.replicate (places - part.length) '0' ++ part
  let kept := (padded.reverse.dropWhile (· == '0')).reverse
  let fraction := if n % Nat.pow 10 places = 0 then [] else '.' :: kept
  String.ofList (Nat.toDigits 10 (n / Nat.pow 10 places) ++ fraction) ++ unit

/-- The length in the largest unit that makes it at least one. -/
def display (d : Duration) : String :=
  if Nat.pow 10 9 ≤ d.nanos then inUnits 9 d.nanos "s"
  else if Nat.pow 10 6 ≤ d.nanos then inUnits 6 d.nanos "ms"
  else if Nat.pow 10 3 ≤ d.nanos then inUnits 3 d.nanos "µs"
  else inUnits 0 d.nanos "ns"

end Duration

end Switchover
