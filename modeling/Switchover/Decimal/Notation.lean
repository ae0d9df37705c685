import Switchover.Decimal.Shortest

/-!
Written numbers: where the decimal point goes, when an exponent is used, and how the numbers without
digits are spelled. Each place that prints a number has one `Layout`.
-/
namespace Switchover.Decimal

/-- The decisions of one number format. -/
structure Layout where
  /-- The positions of the decimal point that are written without an exponent; all if absent. -/
  positional : Option (Int × Int)
  /-- A whole number that is written positionally ends in `.0`. -/
  wholeMark : Bool
  /-- An exponent that is not negative carries a plus sign. -/
  plusSign : Bool
  tie : Tie
  deriving DecidableEq, Repr

/-- Digits with a decimal point at `point`, padded with zeros where the point lies outside them. -/
def positionalText (wholeMark : Bool) (ds : List Char) (point : Int) : List Char :=
  if point ≤ 0 then ['0', '.'] ++ List.replicate (-point).toNat '0' ++ ds
  else
    let n := point.toNat
    if n < ds.length then ds.take n ++ ['.'] ++ ds.drop n
    else ds ++ List.replicate (n - ds.length) '0' ++ (if wholeMark then ['.', '0'] else [])

/-- An exponent behind its letter. -/
def exponentText (plusSign : Bool) (e : Int) : List Char :=
  ['e'] ++ (if e < 0 then ['-'] else if plusSign then ['+'] else []) ++ Nat.toDigits 10 e.natAbs

/-- Digits with one of them before the point, and an exponent. -/
def scientificText (plusSign : Bool) (ds : List Char) (point : Int) : List Char :=
  ds.take 1 ++ (if ds.length ≤ 1 then [] else ['.'] ++ ds.drop 1)
    ++ exponentText plusSign (point - 1)

/-- A number without its sign. -/
def Layout.magnitude (layout : Layout) (m : Nat) (q : Int) : List Char :=
  if m = 0 then (if layout.wholeMark then ['0', '.', '0'] else ['0'])
  else
    let d := shortest layout.tie m q
    let plain := match layout.positional with
      | none => true
      | some (least, greatest) => least ≤ d.point && d.point ≤ greatest
    if plain then positionalText layout.wholeMark d.digits d.point
    else scientificText layout.plusSign d.digits d.point

/-- A number as the layout writes it. -/
def Layout.format (layout : Layout) (x : Float) : String :=
  match Class.of x with
  | .nan => "NaN"
  | .infinite negative => if negative then "-inf" else "inf"
  | .finite ⟨negative, m, q⟩ =>
    String.ofList ((if negative then ['-'] else []) ++ layout.magnitude m q)

/-- Measured values in reports: at least one place, positional from 0.0001 up to 10 ^ 16. -/
def measured : Layout := ⟨some (-3, 16), true, false, .up⟩

/-- Values quoted back to the caller: positional however long that gets. -/
def verbatim : Layout := ⟨none, false, false, .up⟩

/-- Numbers in JSON texts: positional from 0.00001 up to 10 ^ 16. -/
def interchange : Layout := ⟨some (-4, 16), true, true, .even⟩

end Switchover.Decimal
