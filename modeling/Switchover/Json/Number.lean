import Switchover.Decimal.Binary
import Switchover.Text.Numeral

/-!
Numbers in JSON texts. Whole numbers within 64 bits stay exact. Any other number is formed in two
roundings: the leading digits that fit 64 bits are rounded to a binary64 number, which is then
multiplied or divided by a power of ten. A number beyond the largest finite one has no value.
-/
namespace Switchover.Json

/-- The value of a number. -/
inductive Number where
  | natural (n : Nat)
  | negative (n : Int)
  | real (x : Float)

/-- A number as it is spelled: the digits before and behind the point and those of the exponent. -/
structure Spelling where
  minus : Bool
  whole : List Char
  places : List Char
  exponent : Option (Bool × List Char)

/-- The leading digits, at least one of them, and what follows. -/
def digits? (s : List Char) : Option (List Char × List Char) :=
  match s.takeWhile Char.isDigit with
  | [] => none
  | ds => some (ds, s.dropWhile Char.isDigit)

/-- The digits before the point: a leading zero stands alone. -/
def readWhole (s : List Char) : Option (List Char × List Char) :=
  match digits? s with
  | some ('0' :: _ :: _, _) => none
  | r => r

/-- The digits behind the point; none without a point. -/
def readPlaces : List Char → Option (List Char × List Char)
  | '.' :: s => digits? s
  | s => some ([], s)

/-- The exponent behind its letter: whether it is negative, and its digits. -/
def readExponent : List Char → Option (Option (Bool × List Char) × List Char)
  | c :: s =>
    if c = 'e' ∨ c = 'E' then
      let (negative, s) := match s with
        | '-' :: r => (true, r)
        | '+' :: r => (false, r)
        | r => (false, r)
      (digits? s).map fun (ds, r) => (some (negative, ds), r)
    else some (none, c :: s)
  | [] => some (none, [])

/-- A number from the front of a text. -/
def readSpelling (s : List Char) : Option (Spelling × List Char) := do
  let (minus, s) := match s with
    | '-' :: r => (true, r)
    | r => (false, r)
  let (whole, s) ← readWhole s
  let (places, s) ← readPlaces s
  let (exponent, s) ← readExponent s
  return (⟨minus, whole, places, exponent⟩, s)

/-- Appends digits to `n` as long as the number stays within `bound`, and answers the digits
left. -/
def gather (bound : Nat) (n : Nat) : List Char → Nat × List Char
  | [] => (n, [])
  | c :: cs =>
    let next := 10 * n + (c.toNat - 48)
    if next ≤ bound then gather bound next cs else (n, c :: cs)

/-- `x * 10 ^ e` by one multiplication or division, or several divisions for a tiny number; `none`
if the result is infinite. -/
def scale (x : Float) (e : Int) : Option Float :=
  if e < -308 then
    if x == 0 then some x else scale (x / Decimal.nearestDecimal false 1 308) (e + 308)
  else if e < 0 then some (x / Decimal.nearestDecimal false 1 (-e))
  else if 308 < e then
    if x == 0 then some x else none
  else
    let y := x * Decimal.nearestDecimal false 1 e
    if y.isInf then none else some y
termination_by (-e).toNat

/-- The binary64 value of `significand * 10 ^ exponent` with a sign. -/
def realValue (minus : Bool) (significand : Nat) (exponent : Int) : Option Number :=
  (scale (UInt64.ofNat significand).toFloat exponent).map fun x => .real (if minus then -x else x)

/-- The value of a whole number that fits 64 bits without its sign. -/
def wholeValue (minus : Bool) (n : Nat) : Number :=
  if !minus then .natural n
  else if 0 < n ∧ n ≤ Nat.pow 2 63 then .negative (-n)
  else .real (-(UInt64.ofNat n).toFloat)

/-- The value of a number; `none` if it is too large for a binary64 number. -/
def Spelling.value (s : Spelling) : Option Number :=
  let (n, beyond) := gather (UInt64.size - 1) 0 s.whole
  let (m, ignored) := gather (UInt64.size - 1) n s.places
  let shift : Int := (beyond.length : Int) - ((s.places.length - ignored.length : Nat) : Int)
  match s.exponent with
  | none =>
    if beyond = [] ∧ s.places = [] then some (wholeValue s.minus n)
    else realValue s.minus m shift
  | some (negative, ds) =>
    match gather (Nat.pow 2 31 - 1) 0 ds with
    | (e, []) => realValue s.minus m (if negative then shift - e else shift + e)
    | (_, _ :: _) =>
      if m ≠ 0 ∧ !negative then none else some (.real (if s.minus then -0.0 else 0.0))

end Switchover.Json
