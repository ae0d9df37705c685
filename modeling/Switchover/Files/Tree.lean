import Switchover.Files.Path

/-!
A tree of files as a value. Paths are followed component by component, and each step has to start
in a directory; the first step that cannot be taken names the fault.
-/
namespace Switchover.Files

/-- Why a file cannot be reached. -/
inductive Fault where
  | missing
  | notDirectory
  | isDirectory
  | nameTooLong
  /-- A path holds the character that ends names. -/
  | nulCharacter
  /-- Anything else, in words. -/
  | other (description : String)
  deriving DecidableEq, Repr

/-- The fault in words. -/
def Fault.message : Fault → String
  | missing => "No such file or directory (os error 2)"
  | notDirectory => "Not a directory (os error 20)"
  | isDirectory => "Is a directory (os error 21)"
  | nameTooLong => "File name too long (os error 36)"
  | nulCharacter => "file name contained an unexpected NUL byte"
  | other description => description

/-- A place in the tree: the components on the way from the root. -/
abbrev Location := List String

/-- What stands at a place. -/
inductive Entry where
  | directory
  | file (content : String)
  deriving DecidableEq, Repr

/-- Files and directories by their places. The root is always there. -/
structure Tree where
  entries : List (Location × Entry)
  deriving Repr, Inhabited

namespace Tree

/-- What stands at a place, if anything does. -/
def at? (t : Tree) (place : Location) : Option Entry :=
  if place.isEmpty then some .directory else t.entries.lookup place

/-- Puts something at a place. -/
def put (t : Tree) (place : Location) (entry : Entry) : Tree :=
  ⟨(place, entry) :: t.entries.filter (·.1 != place)⟩

/-- One step from a place, which has to be a directory. -/
def step (t : Tree) (place : Location) (component : String) : Except Fault Location :=
  match t.at? place with
  | none => .error .missing
  | some (.file _) => .error .notDirectory
  | some .directory =>
    if component = "" ∨ component = "." then .ok place
    else if component = ".." then .ok place.dropLast
    else if 255 < component.utf8ByteSize then .error .nameTooLong
    else .ok (place ++ [component])

/-- The place that a path leads to. Nothing needs to stand there yet. -/
def locate (t : Tree) (here : Location) (path : String) : Except Fault Location :=
  if path.toList.contains '\x00' then .error .nulCharacter
  else if path.isEmpty then .error .missing
  else if 4096 ≤ path.utf8ByteSize then .error .nameTooLong
  else
    (path.toList.splitOn '/').foldlM (fun place component => t.step place (String.ofList component))
      (if isAbsolute path then [] else here)

/-- What a path leads to. -/
def find? (t : Tree) (here : Location) (path : String) : Except Fault Entry := do
  match t.at? (← t.locate here path) with
  | none => .error .missing
  | some entry => .ok entry

/-- The content of a file. -/
def read (t : Tree) (here : Location) (path : String) : Except Fault String := do
  match ← t.find? here path with
  | .directory => .error .isDirectory
  | .file content => .ok content

/-- Copies a file. The target is emptied before the source is read to its end, so a file copied onto
itself is lost. -/
def copy (t : Tree) (here : Location) (source target : String) : Except Fault Tree := do
  let origin ← t.locate here source
  let content ← t.read here source
  let place ← t.locate here target
  match t.at? place with
  | some .directory => .error .isDirectory
  | _ =>
    match t.at? place.dropLast with
    | some .directory => .ok (t.put place (.file (if place = origin then "" else content)))
    | some (.file _) => .error .notDirectory
    | none => .error .missing

end Tree

end Switchover.Files
