import Switchover.Endpoint.Address

/-!
Endpoints and their natural order: addresses come first, by value; all other names compare with
their digit runs as numbers, so `server2` stands before `server10`. Two different names never tie.
-/
namespace Switchover

/-- The name of a destination, usually an IP address. -/
structure Endpoint where
  name : String
  deriving DecidableEq, Repr, Inhabited

/-- Two runs of digits as numbers: without leading zeros the longer run is the greater number. -/
def compareRuns (x y : List Char) : Ordering :=
  let x := x.dropWhile (· == '0')
  let y := y.dropWhile (· == '0')
  (compare x.length y.length).then (compareOfLessAndEq x y)

/-- Walks two names in step, a digit run on both sides counting as one place. -/
def compareNatural : List Char → List Char → Ordering
  | [], [] => .eq
  | [], _ :: _ => .lt
  | _ :: _, [] => .gt
  | x :: xs, y :: ys =>
    if x.isDigit ∧ y.isDigit then
      (compareRuns (x :: xs.takeWhile Char.isDigit) (y :: ys.takeWhile Char.isDigit)).then
        (compareNatural (xs.dropWhile Char.isDigit) (ys.dropWhile Char.isDigit))
    else if x = y then compareNatural xs ys
    else if x < y then .lt
    else .gt
termination_by a => a.length
decreasing_by
  · have := (List.dropWhile_sublist (l := xs) Char.isDigit).length_le
    simp only [List.length_cons]
    omega
  · simp

namespace Endpoint

/-- The address that the name spells, if it spells one. -/
def address? (e : Endpoint) : Option Address :=
  Address.read? e.name.toList

/-- The natural order. Names that agree in every place, and spellings of one address, are told apart
by their characters. -/
def order (a b : Endpoint) : Ordering :=
  let spelling := compareOfLessAndEq a.name.toList b.name.toList
  match a.address?, b.address? with
  | some x, some y => (x.order y).then spelling
  | some _, none => .lt
  | none, some _ => .gt
  | none, none => (compareNatural a.name.toList b.name.toList).then spelling

/-- Whether `a` may stand before `b` in a sorted list. -/
def le (a b : Endpoint) : Bool :=
  (a.order b).isLE

/-- The endpoints in natural order; equal ones keep their number. -/
def sort (es : List Endpoint) : List Endpoint :=
  es.mergeSort le

end Endpoint

end Switchover
