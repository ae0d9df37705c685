/-!
Failures told from the outside in: what went wrong first as the caller sees it, then each
circumstance that caused it.
-/
namespace Switchover

/-- A failure with the circumstances in which it arose, the outermost first. -/
structure Trouble where
  chain : List String
  deriving DecidableEq, Repr, Inhabited

namespace Trouble

/-- The failure on one line. -/
def message (t : Trouble) : String :=
  String.intercalate ": " t.chain

/-- The causes, each on a line of its own, with numbers if there are several. -/
def causeLines (causes : List String) : List String :=
  match causes with
  | [cause] => ["    " ++ cause]
  | causes => (causes.zip (List.range causes.length)).map fun (cause, i) =>
      "    " ++ toString i ++ ": " ++ cause

/-- The failure as the last words of a program: the outermost circumstance, and below it the
causes. -/
def lastWords (t : Trouble) : String :=
  match t.chain with
  | [] => "Error: \n"
  | [outer] => "Error: " ++ outer ++ "\n"
  | outer :: causes =>
    "Error: " ++ outer ++ "\n\nCaused by:\n" ++ String.intercalate "\n" (causeLines causes) ++ "\n"

end Trouble

end Switchover
