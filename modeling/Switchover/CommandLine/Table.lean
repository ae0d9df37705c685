import Switchover.Decimal.Fixed
import Switchover.Verdict.Report

/-!
Summaries as a table for people. Each column has a width, and a cell that is too wide is not cut.
-/
namespace Switchover.CommandLine

/-- A column of a table. -/
structure Column where
  title : String
  width : Nat
  /-- The cells are filled up on their right side. -/
  leftAligned : Bool
  deriving DecidableEq, Repr

namespace Column

/-- A cell filled up to the width of its column. -/
def fit (c : Column) (cell : String) : String :=
  let filler := String.ofList (List.replicate (c.width - cell.length) ' ')
  if c.leftAligned then cell ++ filler else filler ++ cell

/-- The line under the title. -/
def line (c : Column) : String :=
  String.ofList (List.replicate c.width '-')

end Column

/-- The columns of the summary table. -/
def summaryColumns : List Column :=
  [⟨"Endpoint", 20, true⟩, ⟨"Received", 8, false⟩, ⟨"Diff", 6, false⟩, ⟨"Disruptions", 11, false⟩,
   ⟨"Longest (s)", 12, false⟩, ⟨"Dup Seqs", 9, false⟩]

/-- The cells of one endpoint. -/
def summaryCells (e : Endpoint) (s : Summary) : List String :=
  [e.name, toString s.received.toNat, toString s.surplus.toInt, toString s.outages,
   Decimal.fixed 3 s.longestOutage, toString s.bursts]

/-- One line of a table. -/
def tableRow (columns : List Column) (cells : List String) : String :=
  String.intercalate " | " (columns.zipWith Column.fit cells) ++ "\n"

/-- The table of all endpoints below its heading. -/
def summaryTable (summaries : EndpointMap Summary) : String :=
  "\n=== Traffic Summary ===\n"
    ++ tableRow summaryColumns (summaryColumns.map (·.title))
    ++ String.intercalate "-|-" (summaryColumns.map Column.line) ++ "\n"
    ++ String.join (summaries.entries.map fun (e, s) => tableRow summaryColumns (summaryCells e s))

/-- The verdict of a report, with its failures. -/
def verdictLines (r : Report) : String :=
  if r.passes then "\nVerdict: PASS\n"
  else "\nVerdict: FAIL\n" ++ String.join (r.failures.map fun f => " - " ++ f ++ "\n")

/-- A report as text. -/
def reportText (r : Report) : String :=
  summaryTable r.summaries ++ verdictLines r ++ "\n"

end Switchover.CommandLine
