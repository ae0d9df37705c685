import Switchover.Decimal.Binary

/-!
Shortest decimals: the fewest significant digits that read back as the same number. Around
`m * 2 ^ q` lie the reals that round to it, ends included when `m` is even. For one digit, two
digits and so on, only the two neighbours of the number on that decimal grid need a look: the first
grid with a neighbour among those reals wins, and of two such neighbours the nearer one.
-/
namespace Switchover.Decimal

/-- Where a number goes that lies half way between its two neighbours on the grid. -/
inductive Tie where
  | up
  | even
  deriving DecidableEq, Repr

/-- A positive decimal `0.d₁d₂… * 10 ^ point`, its first and last digit not zero. -/
structure Digits where
  digits : List Char
  point : Int
  deriving DecidableEq, Repr

/-- The number of decimal digits of `n`. -/
def digitCount (n : Nat) : Nat :=
  (Nat.toDigits 10 n).length

/-- The position of the leading digit of `m * 2 ^ q`: the greatest `e` with `10 ^ e` at most
that. -/
def leading (m : Nat) (q : Int) : Int :=
  (digitCount (m * Nat.pow 2 q.toNat * Nat.pow 10 400 / Nat.pow 2 (-q).toNat) : Int) - 401

/-- The grid point chosen for `m * 2 ^ q` among the multiples of `10 ^ k`, if one rounds to it. -/
def onGrid? (tie : Tie) (m : Nat) (q : Int) (k : Int) : Option Nat :=
  -- quarters of the unit 2 ^ q make the ends of the interval whole numbers
  let r := q - 2
  let grid := Nat.pow 10 k.toNat * Nat.pow 2 (-r).toNat
  let unit := Nat.pow 2 r.toNat * Nat.pow 10 (-k).toNat
  let value := 4 * m * unit
  let low := (if m = Nat.pow 2 52 ∧ minExponent < q then 4 * m - 1 else 4 * m - 2) * unit
  let high := (4 * m + 2) * unit
  let inside (d : Nat) : Bool :=
    if m % 2 = 0 then low ≤ d * grid ∧ d * grid ≤ high else low < d * grid ∧ d * grid < high
  let below := value / grid
  let above := below + 1
  match inside below && 0 < below, inside above with
  | false, false => none
  | true, false => some below
  | false, true => some above
  | true, true =>
    let down := value - below * grid
    let up := above * grid - value
    if down < up then some below
    else if up < down then some above
    else match tie with
      | .up => some above
      | .even => some (if below % 2 = 0 then below else above)

/-- A grid point written out, trailing zeros dropped. -/
def Digits.ofGrid (d : Nat) (k : Int) : Digits :=
  let ds := Nat.toDigits 10 d
  ⟨(ds.reverse.dropWhile (· == '0')).reverse, ds.length + k⟩

/-- Tries the grids of `n` digits, `n + 1` digits and so on, `tries` of them. -/
def searchGrids (tie : Tie) (m : Nat) (q : Int) (e : Int) : Nat → Nat → Digits
  | 0, n =>
    .ofGrid (m * Nat.pow 2 q.toNat * Nat.pow 10 (n - e).toNat / Nat.pow 2 (-q).toNat) (e - n)
  | tries + 1, n =>
    let k := e + 1 - n
    match onGrid? tie m q k with
    | some d => .ofGrid d k
    | none => searchGrids tie m q e tries (n + 1)

/-- The shortest decimal that rounds to `m * 2 ^ q`, for positive `m`. Seventeen digits suffice. -/
def shortest (tie : Tie) (m : Nat) (q : Int) : Digits :=
  searchGrids tie m q (leading m q) 17 1

end Switchover.Decimal
