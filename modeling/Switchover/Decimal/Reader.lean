import Switchover.Decimal.Binary
import Switchover.Text.Numeral

/-!
Decimal numbers as typed on a command line: an optional sign, then a word for a number without
digits, or digits with an optional point and an optional exponent. The value is the nearest binary64
number.
-/
namespace Switchover.Decimal

open Text (digitsValue)

/-- A text in lower case, as far as ASCII letters go. -/
def lowerAscii (s : List Char) : List Char :=
  s.map Char.toLower

/-- The words for numbers without digits. -/
def word? (negative : Bool) (s : List Char) : Option Float :=
  match String.ofList (lowerAscii s) with
  | "nan" => some (0.0 / 0.0)
  | "inf" | "infinity" => some (nearest negative (Nat.pow 2 1024) 1)
  | _ => none

/-- The leading digits of a text and what follows them. -/
def splitDigits (s : List Char) : List Char × List Char :=
  s.span Char.isDigit

/-- An exponent with an optional sign; the whole text has to be one. -/
def exponent? (s : List Char) : Option Int :=
  let (negative, ds) := match s with
    | '-' :: r => (true, r)
    | '+' :: r => (false, r)
    | r => (false, r)
  if ds ≠ [] ∧ ds.all Char.isDigit then
    some (if negative then -(digitsValue ds : Int) else digitsValue ds)
  else none

/-- A number without its sign. -/
def unsigned? (negative : Bool) (s : List Char) : Option Float :=
  let (whole, r) := splitDigits s
  let (places, r) := match r with
    | '.' :: r => splitDigits r
    | r => ([], r)
  if whole ++ places = [] then word? negative s
  else
    let e? := match r with
      | [] => some 0
      | 'e' :: r | 'E' :: r => exponent? r
      | _ => none
    e?.map fun e => nearestDecimal negative (digitsValue (whole ++ places)) (e - places.length)

/-- The number that the text spells. -/
def read? (s : List Char) : Option Float :=
  match s with
  | '-' :: r => unsigned? true r
  | '+' :: r => unsigned? false r
  | r => unsigned? false r

end Switchover.Decimal
