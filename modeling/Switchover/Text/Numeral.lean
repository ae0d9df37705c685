/-!
Numerals: an optional plus sign and at least one ASCII digit, read under an upper bound. The first
character that cannot be accepted names the fault, so of a wrong digit and a number that has grown
too large the one that stands further left is reported.
-/
namespace Switchover.Text

/-- Why a text is no numeral below the bound. -/
inductive NumeralFault where
  | empty
  | badDigit
  | tooLarge
  deriving DecidableEq, Repr

namespace NumeralFault

/-- The fault in words. -/
def message : NumeralFault → String
  | empty => "cannot parse integer from empty string"
  | badDigit => "invalid digit found in string"
  | tooLarge => "number too large to fit in target type"

end NumeralFault

/-- The value of an ASCII digit. -/
def digitValue? (c : Char) : Option Nat :=
  if '0' ≤ c ∧ c ≤ '9' then some (c.toNat - 48) else none

/-- The value of a hexadecimal digit in either case. -/
def hexValue? (c : Char) : Option Nat :=
  if '0' ≤ c ∧ c ≤ '9' then some (c.toNat - 48)
  else if 'a' ≤ c ∧ c ≤ 'f' then some (c.toNat - 87)
  else if 'A' ≤ c ∧ c ≤ 'F' then some (c.toNat - 55)
  else none

/-- The number that a list of digits spells. -/
def digitsValue (ds : List Char) : Nat :=
  ds.foldl (fun n c => 10 * n + (c.toNat - 48)) 0

/-- One more digit behind the number read so far. -/
def pushDigit (bound : Nat) (n : Nat) (c : Char) : Except NumeralFault Nat :=
  match digitValue? c with
  | none => .error .badDigit
  | some d => if 10 * n + d ≤ bound then .ok (10 * n + d) else .error .tooLarge

/-- The digits of a numeral, from the left. -/
def readDigits (bound : Nat) (s : List Char) : Except NumeralFault Nat :=
  s.foldlM (pushDigit bound) 0

/-- The number that `s` spells, if it is at most `bound`. A sign alone is a wrong digit. -/
def readNumeral (bound : Nat) : List Char → Except NumeralFault Nat
  | [] => .error .empty
  | ['+'] => .error .badDigit
  | '+' :: s => readDigits bound s
  | s => readDigits bound s

/-- A numeral that fits 32 bits. -/
def readUInt32 (s : List Char) : Except NumeralFault UInt32 :=
  (readNumeral (UInt32.size - 1) s).map UInt32.ofNat

/-- A numeral that fits 64 bits. -/
def readUInt64 (s : List Char) : Except NumeralFault UInt64 :=
  (readNumeral (UInt64.size - 1) s).map UInt64.ofNat

end Switchover.Text
