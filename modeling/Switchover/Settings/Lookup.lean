import Switchover.Files.Machine
import Switchover.Settings.File
import Switchover.Trouble

/-!
Finding the settings: in a file that the caller names, or else in the first file that can be read
of the one named by the environment and the one of the system.
-/
namespace Switchover.Settings

open Files (Machine)

/-- The environment variable that names a settings file. -/
def variableName : String := "DUALTOR_IO_CONFIG"

/-- The settings file of the system. -/
def systemPath : String := "/etc/dualtor-io/config.toml"

variable {m : Type → Type} [Monad m]

/-- The settings in a file. -/
def load (machine : Machine m) (path : String) : m (Except Trouble Settings) := do
  match ← machine.read path with
  | .error e => return .error ⟨["failed to read config file: " ++ path, e.message]⟩
  | .ok content =>
    match ofText? content with
    | none => return .error ⟨["failed to parse config file: " ++ path]⟩
    | some settings => return .ok settings

/-- The settings of the environment, of the system, or the defaults. A file that cannot be used is
passed over. -/
def loadOrDefault (machine : Machine m) : m Settings := do
  if let some path ← machine.environment variableName then
    if let .ok settings ← load machine path then return settings
  if ← machine.isPresent systemPath then
    if let .ok settings ← load machine systemPath then return settings
  return .default

end Switchover.Settings
