import Std.Time.DateTime.Timestamp
import Switchover.Calendar
import Switchover.CommandLine.Run

/-!
The program: the command line on the machine it is started on.
-/

namespace Switchover.Console

/-- The fault behind an error of the system. -/
def systemFault : IO.Error → Files.Fault
  | .noFileOrDirectory .. => .missing
  | .inappropriateType _ 20 _ => .notDirectory
  | .inappropriateType _ 21 _ => .isDirectory
  | e => .other (toString e)

/-- The outcome of a system call. -/
def attempt {α : Type} (call : IO α) : IO (Except Files.Fault α) := do
  try return .ok (← call) catch e => return .error (systemFault e)

/-- What kind of file a path leads to. -/
def fileType? (path : String) : IO (Option IO.FS.FileType) := do
  try return some (← (← IO.FS.realPath path).metadata).type catch _ => return none

/-- Copies a file. The target is emptied before the source is read. -/
def copyFile (source target : String) : IO Unit := do
  let reader ← IO.FS.Handle.mk source .read
  let writer ← IO.FS.Handle.mk target .write
  writer.write (← reader.readBinToEnd)

/-- The machine that the program runs on. -/
def thisMachine : Files.Machine IO where
  read path := attempt (IO.FS.readFile path)
  isPresent path := return (← fileType? path).isSome
  isFile path := return (← fileType? path) == some .file
  copy source target := attempt (copyFile source target)
  workingDirectory := attempt (return (← IO.currentDir).toString)
  environment name := IO.getEnv name
  now := return Calendar.timestamp (← Std.Time.Timestamp.now).toNanosecondsSinceUnixEpoch.val.toNat

end Switchover.Console

/-- Runs the program. -/
def main (args : List String) : IO UInt32 := do
  let drawn ← IO.rand 0 (Nat.pow 2 62)
  let machine := Switchover.Console.thisMachine
  let answer ← Switchover.CommandLine.answer machine (fun n => drawn % n) args
  IO.print answer.output
  IO.eprint answer.complaint
  return answer.exitCode.toUInt32
