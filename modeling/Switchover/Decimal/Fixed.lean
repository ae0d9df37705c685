import Switchover.Decimal.Binary

/-!
Numbers with a fixed count of decimal places, rounded from the exact binary value; a value half way
between two such decimals goes to the even one.
-/
namespace Switchover.Decimal

/-- `n` as digits with the last `places` of them behind the point. -/
def placed (places : Nat) (n : Nat) : List Char :=
  let ds := Nat.toDigits 10 n
  let padded := List.replicate (places + 1 - ds.length) '0' ++ ds
  let whole := padded.length - places
  padded.take whole ++ (if places = 0 then [] else ['.'] ++ padded.drop whole)

/-- `x` with `places` decimal places. -/
def fixed (places : Nat) (x : Float) : String :=
  match Class.of x with
  | .nan => "NaN"
  | .infinite negative => if negative then "-inf" else "inf"
  | .finite ⟨negative, m, q⟩ =>
    let n := roundQuotient (m * Nat.pow 2 q.toNat * Nat.pow 10 places) (Nat.pow 2 (-q).toNat)
    String.ofList ((if negative then ['-'] else []) ++ placed places n)

end Switchover.Decimal
