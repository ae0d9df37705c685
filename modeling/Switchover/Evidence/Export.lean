import Switchover.Evidence.Name
import Switchover.Files.Machine
import Switchover.Trouble

/-!
Keeping the capture of a test: it is copied into the directory of the test's log. Without a
capture, or without a log, there is nothing to keep.
-/
namespace Switchover.Evidence

open Files (Machine)

/-- The path of the copy, for a log file with an absolute path. -/
def target (log test : String) : String :=
  Files.join ((Files.parent? log).getD ".") (fileName test)

/-- Copies the capture next to the log and answers the path of the copy. -/
def save {m : Type → Type} [Monad m] (machine : Machine m) (capture : String) (log : Option String)
    (test : String) : m (Except Trouble (Option String)) := do
  if !(← machine.isFile capture) then return .ok none
  match log with
  | none => return .ok none
  | some log =>
    match ← absolute log with
    | .error e => return .error ⟨["failed to resolve current directory", e.message]⟩
    | .ok log =>
      let target := target log test
      match ← machine.copy capture target with
      | .error e =>
        return .error ⟨["failed to copy " ++ capture ++ " to " ++ target, e.message]⟩
      | .ok () => return .ok (some target)
where
  /-- The path from the root. -/
  absolute (path : String) : m (Except Files.Fault String) := do
    if Files.isAbsolute path then return .ok path
    return (← machine.workingDirectory).map fun here => Files.join here path

end Switchover.Evidence
