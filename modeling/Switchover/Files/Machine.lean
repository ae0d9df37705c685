import Switchover.Files.Tree

/-!
What a command needs from the machine it runs on, as a record of operations in some monad. On a
tree of files the operations are plain functions, so a command's effect can be computed and
reasoned about.
-/
namespace Switchover.Files

/-- The operations of a machine. -/
structure Machine (m : Type → Type) where
  /-- The content of a text file. -/
  read : (path : String) → m (Except Fault String)
  /-- Whether a path leads to anything. -/
  isPresent : (path : String) → m Bool
  /-- Whether a path leads to a regular file. -/
  isFile : (path : String) → m Bool
  /-- Copies a file. -/
  copy : (source target : String) → m (Except Fault Unit)
  /-- The directory that relative paths start from. -/
  workingDirectory : m (Except Fault String)
  /-- The value of an environment variable. -/
  environment : (name : String) → m (Option String)
  /-- The time of the day, in words. -/
  now : m String

/-- A machine as a value: its files, the working directory, the environment and a clock that stands
still. -/
structure Desk where
  tree : Tree
  here : String
  environment : List (String × String)
  time : String

namespace Desk

/-- The place of the working directory. -/
def place (d : Desk) : Location :=
  (d.tree.locate [] d.here).toOption.getD []

/-- What a path leads to. -/
def find? (d : Desk) (path : String) : Option Entry :=
  (d.tree.find? d.place path).toOption

end Desk

/-- The machine whose state is a desk. -/
def Machine.ofDesk : Machine (StateM Desk) where
  read path := do return (← get).tree.read (← get).place path
  isPresent path := do return ((← get).find? path).isSome
  isFile path := do
    return match (← get).find? path with
      | some (.file _) => true
      | _ => false
  copy source target := do
    let d ← get
    match d.tree.copy d.place source target with
    | .error e => return .error e
    | .ok tree =>
      set { d with tree }
      return .ok ()
  workingDirectory := do return .ok (← get).here
  environment name := do return (← get).environment.lookup name
  now := do return (← get).time

end Switchover.Files
