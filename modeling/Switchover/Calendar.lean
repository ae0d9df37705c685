/-!
Dates and times of the day in universal time. Years are counted from March, so that a leap day is
the last day of its year and every group of 400 years has the same number of days.
-/
namespace Switchover.Calendar

/-- A date. -/
structure Date where
  year : Nat
  month : Nat
  day : Nat
  deriving DecidableEq, Repr

/-- The date that lies `days` days after the first of January 1970. -/
def dateAfter (days : Nat) : Date :=
  -- days since the first of March of the year zero
  let day := days + 719468
  let ofGroup := day % 146097
  let yearOfGroup := (ofGroup - ofGroup / 1460 + ofGroup / 36524 - ofGroup / 146096) / 365
  let ofYear := ofGroup - (365 * yearOfGroup + yearOfGroup / 4 - yearOfGroup / 100)
  -- months from March on have 31, 30, 31, 30, 31 days, and again
  let month := (5 * ofYear + 2) / 153
  { year := 400 * (day / 146097) + yearOfGroup + (if month < 10 then 0 else 1)
    month := if month < 10 then month + 3 else month - 9
    day := ofYear - (153 * month + 2) / 5 + 1 }

/-- A number with zeros in front of it. -/
def padded (width n : Nat) : String :=
  let digits := toString n
  String.ofList (List.replicate (width - digits.length) '0') ++ digits

/-- The time `nanos` nanoseconds after the beginning of 1970. -/
def timestamp (nanos : Nat) : String :=
  let seconds := nanos / 1000000000
  let date := dateAfter (seconds / 86400)
  let time := seconds % 86400
  padded 4 date.year ++ "-" ++ padded 2 date.month ++ "-" ++ padded 2 date.day
    ++ "T" ++ padded 2 (time / 3600) ++ ":" ++ padded 2 (time / 60 % 60) ++ ":"
    ++ padded 2 (time % 60) ++ "." ++ padded 9 (nanos % 1000000000) ++ "Z"

end Switchover.Calendar
