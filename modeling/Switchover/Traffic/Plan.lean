import Switchover.Json.Decode
import Switchover.Json.Printer

/-!
Impairment plans: which packets of a simulated run are lost and which arrive more than once. The
plan is the same for every endpoint.
-/
namespace Switchover

open Json (Value Outline Decoded Form)

/-- The ids from one to another, both included; none if the second is smaller. -/
structure IdRange where
  first : UInt64
  last : UInt64
  deriving DecidableEq, Repr, Inhabited

namespace IdRange

/-- Whether an id lies in the range. -/
def contains (r : IdRange) (id : UInt64) : Bool :=
  r.first ≤ id && id ≤ r.last

/-- A range as an object. -/
def toJson (r : IdRange) : Value :=
  .table [("start", .word r.first), ("end", .word r.last)]

/-- The fields of a range, which has no others. -/
def form : Form IdRange where
  name := "struct RangeInclusive"
  listName := "struct RangeInclusive"
  fields := ["start", "end"]
  required := 2
  strict := true
  accept := fun r field o =>
    match field with
    | "start" => return { r with first := ← o.toUInt64 }
    | "end" => return { r with last := ← o.toUInt64 }
    | _ => return r

/-- Reads a range. -/
def ofJson (o : Outline) : Decoded IdRange :=
  form.decode ⟨0, 0⟩ o

end IdRange

/-- The faults of a simulated run. -/
structure Plan where
  /-- The ids that never arrive. -/
  losses : List IdRange
  /-- Ids with a number of extra copies; the entries of one id add up. -/
  copies : List (UInt64 × UInt32)
  /-- The capture fails before any traffic flows. -/
  failsOnStart : Bool
  deriving DecidableEq, Repr, Inhabited

/-- The sum of two counts, which stops at the largest one. -/
def saturatingAdd (a b : UInt32) : UInt32 :=
  if a.toNat + b.toNat < UInt32.size then a + b else UInt32.ofNat (UInt32.size - 1)

namespace Plan

/-- The plan without faults. -/
def clean : Plan := ⟨[], [], false⟩

/-- Whether the packets with an id are lost. -/
def isLost (p : Plan) (id : UInt64) : Bool :=
  p.losses.any (·.contains id)

/-- The extra copies of the packets with an id. -/
def extraCopies (p : Plan) (id : UInt64) : UInt32 :=
  (p.copies.filter (·.1 == id)).foldl (fun n entry => saturatingAdd n entry.2) 0

/-- A plan as an object. -/
def toJson (p : Plan) : Value :=
  .table [("loss", .list (p.losses.map IdRange.toJson)),
    ("duplicates", .list (p.copies.map fun (id, n) => .list [.word id, .int n.toNat])),
    ("fail_on_start", .bool p.failsOnStart)]

/-- The fields of a plan, all of which may be absent. -/
def form : Form Plan :=
  .lenient "ImpairmentPlan" ["loss", "duplicates", "fail_on_start"] 0 fun p field o =>
    match field with
    | "loss" => return { p with losses := ← o.toList IdRange.ofJson }
    | "duplicates" =>
      return { p with copies := ← o.toList (Outline.toPair Outline.toUInt64 Outline.toUInt32) }
    | "fail_on_start" => return { p with failsOnStart := ← o.toBool }
    | _ => return p

/-- Reads a plan. -/
def ofJson (o : Outline) : Decoded Plan :=
  form.decode clean o

end Plan

end Switchover
