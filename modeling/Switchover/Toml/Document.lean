/-!
TOML documents as trees of tables, and the rules by which statements build them. A table remembers
how it came to be: written out under a header, implied by a longer header, or opened by a dotted
key. Only an implied table may still get a header, and only tables opened by dotted keys may be
extended by dotted keys.
-/
namespace Switchover.Toml

/-- How a table came to be. -/
structure Origin where
  /-- It was not written out itself. -/
  implied : Bool
  /-- It was opened by a dotted key. -/
  dotted : Bool
  /-- It stands between braces, so no header can reach into it. -/
  braced : Bool
  deriving DecidableEq, Repr

/-- A part of a document. -/
inductive Node where
  | text (s : String)
  | int (n : Int)
  /-- A date, a time or both. -/
  | moment
  /-- A truth value or a number with a fraction. -/
  | other
  | list (items : List Node)
  | table (origin : Origin) (entries : List (String × Node))
  /-- Tables with one header between double brackets each, in order. -/
  | tables (items : List (List (String × Node)))
  deriving Inhabited

/-- The entries of a table, in the order in which they were made. -/
abbrev Entries := List (String × Node)

/-- The origin of a table with a header of its own. -/
def Origin.headed : Origin := ⟨false, false, false⟩

namespace Entries

/-- Puts a node under a key, in the place of an earlier one. -/
def set (k : String) (node : Node) : Entries → Entries
  | [] => [(k, node)]
  | (k', old) :: rest => if k' = k then (k, node) :: rest else (k', old) :: set k node rest

/-- The entries without a key. -/
def erase (k : String) (entries : Entries) : Entries :=
  entries.filter (·.1 != k)

/-- Visits the table at a path, which answers a value and its new entries. Tables missing on the
way are implied, by a dotted key or by a header. A dotted key may not pass through a table that was
written out, nothing passes through a value, and of several tables under one header the last one is
meant. -/
def visit {α : Type} (dotted braced : Bool) (f : Origin → Entries → Option (α × Entries)) :
    (path : List String) → Origin → Entries → Option (α × Entries)
  | [], origin, entries => f origin entries
  | k :: path, _, entries =>
    match entries.lookup k with
    | none => do
      let origin : Origin := ⟨true, dotted, braced⟩
      let (a, inner) ← visit dotted braced f path origin []
      return (a, set k (.table origin inner) entries)
    | some (.table origin inner) =>
      if (dotted && !origin.implied) || origin.braced != braced then none
      else do
        let (a, inner) ← visit dotted braced f path origin inner
        return (a, set k (.table origin inner) entries)
    | some (.tables items) => do
      let last ← items.getLast?
      let (a, last) ← visit dotted braced f path .headed last
      return (a, set k (.tables (items.dropLast ++ [last])) entries)
    | some _ => none

/-- Enters a node under a dotted key into a table of the given origin. The last table on the way
has to be one that dotted keys may extend, and the key has to be new there. -/
def assign (braced : Bool) (path : List String) (k : String) (node : Node) (origin : Origin)
    (entries : Entries) : Option Entries :=
  (visit true braced (fun (origin : Origin) (inner : Entries) =>
    if origin.dotted == path.isEmpty || (inner.lookup k).isSome then none
    else some ((), inner ++ [(k, node)])) path origin entries).map (·.2)

end Entries

/-- A dotted key: the tables on the way, and the last part. -/
structure Key where
  path : List String
  last : String
  deriving DecidableEq, Repr

/-- The table that some assignments between braces make. -/
def braced (assignments : List (Key × Node)) : Option Node := do
  let origin : Origin := ⟨false, false, true⟩
  let entries ← assignments.foldlM (fun (entries : Entries) (key, node) =>
    Entries.assign true key.path key.last node origin entries) []
  return .table origin entries

/-- A document under construction: the tables finished so far, and the one that is being written. -/
structure Draft where
  root : Entries
  current : Entries
  /-- The header of the current table; none before the first header. -/
  key : Option Key
  /-- The header stands between double brackets. -/
  repeated : Bool

namespace Draft

/-- The draft of an empty document. -/
def empty : Draft := ⟨[], [], none, false⟩

/-- Puts the current table in its place. -/
def close (d : Draft) : Option Entries :=
  match d.key with
  | none => some d.current
  | some key =>
    (Entries.visit false false (fun _ (entries : Entries) =>
      match d.repeated, entries.lookup key.last with
      | true, none => some ((), Entries.set key.last (.tables [d.current]) entries)
      | true, some (.tables items) =>
        some ((), Entries.set key.last (.tables (items ++ [d.current])) entries)
      | false, none => some ((), entries ++ [(key.last, .table .headed d.current)])
      | _, some _ => none) key.path .headed d.root).map (·.2)

/-- A header between single brackets. If longer headers have implied its table, it goes on with what
that holds. -/
def header (key : Key) (d : Draft) : Option Draft := do
  let root ← d.close
  let (current, root) ← Entries.visit false false (fun _ (entries : Entries) =>
    match entries.lookup key.last with
    | none => some ([], entries)
    | some (.table origin inner) =>
      if origin.implied && !origin.dotted then some (inner, Entries.erase key.last entries)
      else none
    | some _ => none) key.path .headed root
  return ⟨root, current, some key, false⟩

/-- A header between double brackets. -/
def repeatedHeader (key : Key) (d : Draft) : Option Draft := do
  return ⟨← d.close, [], some key, true⟩

/-- An assignment. -/
def assign (key : Key) (node : Node) (d : Draft) : Option Draft := do
  return { d with current := ← Entries.assign false key.path key.last node .headed d.current }

end Draft

end Switchover.Toml
