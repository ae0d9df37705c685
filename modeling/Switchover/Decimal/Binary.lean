/-!
Binary64 numbers taken apart and put together in exact natural arithmetic: a finite number is
`m * 2 ^ q` with natural `m`, and any positive quotient of naturals has a nearest number, ties
going to the even mantissa.
-/
namespace Switchover.Decimal

/-- The parts of a finite number: sign, mantissa and the power of two it is scaled by. -/
structure Binary where
  negative : Bool
  mantissa : Nat
  exponent : Int
  deriving DecidableEq, Repr

/-- The kinds of binary64 numbers. -/
inductive Class where
  | nan
  | infinite (negative : Bool)
  | finite (parts : Binary)
  deriving DecidableEq, Repr

/-- The smallest exponent, that of the subnormal numbers. -/
def minExponent : Int := -1074

/-- Reads the three fields of the 64-bit pattern `w`. -/
def Class.ofBits (w : UInt64) : Class :=
  let n : Nat := w.toNat
  let negative : Bool := Nat.pow 2 63 ≤ n
  let biased : Nat := n / Nat.pow 2 52 % Nat.pow 2 11
  let fraction : Nat := n % Nat.pow 2 52
  if biased = 2047 then
    if fraction = 0 then .infinite negative else .nan
  else if biased = 0 then .finite ⟨negative, fraction, minExponent⟩
  else .finite ⟨negative, Nat.pow 2 52 + fraction, (biased : Int) - 1075⟩

/-- The kind of the number `x`. -/
def Class.of (x : Float) : Class :=
  Class.ofBits x.toBits

/-- The natural number nearest to `num / den`, a tie going to the even one. -/
def roundQuotient (num den : Nat) : Nat :=
  let q := num / den
  let r := num % den
  if 2 * r < den then q else if den < 2 * r then q + 1 else if q % 2 = 0 then q else q + 1

/-- The bits of the positive number nearest to `num / den`: the mantissa is rounded at the last
place the exponent allows, and a result beyond the largest finite number is infinite. -/
def nearestBits (num den : Nat) : Nat :=
  if num = 0 then 0
  else
    -- the quotient lies between 2 ^ (scale - 1) and 2 ^ (scale + 1)
    let scale : Int := (num.log2 : Int) - den.log2
    let above (e : Int) : Bool := den * Nat.pow 2 e.toNat ≤ num * Nat.pow 2 (-e).toNat
    let top : Int := if above scale then scale else scale - 1
    let q : Int := max (top - 52) minExponent
    let m := roundQuotient (num * Nat.pow 2 (-q).toNat) (den * Nat.pow 2 q.toNat)
    -- the leading bit of a normal mantissa, or a carry, moves into the exponent field by itself
    min ((q - minExponent).toNat * Nat.pow 2 52 + m) (2047 * Nat.pow 2 52)

/-- The number nearest to `num / den`, with a sign. -/
def nearest (negative : Bool) (num den : Nat) : Float :=
  let bits := nearestBits num den
  Float.ofBits (UInt64.ofNat (if negative then Nat.pow 2 63 + bits else bits))

/-- The number nearest to `significand * 10 ^ exponent`. Exponents that put the value beyond every
finite number, or below half the smallest one, are answered without forming the power. -/
def nearestDecimal (negative : Bool) (significand : Nat) (exponent : Int) : Float :=
  if significand = 0 ∨ exponent + significand.log2 < -800 then nearest negative 0 1
  else if 400 < exponent + significand.log2 / 4 then nearest negative (Nat.pow 2 1024) 1
  else nearest negative (significand * Nat.pow 10 exponent.toNat) (Nat.pow 10 (-exponent).toNat)

end Switchover.Decimal
