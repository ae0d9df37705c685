import Switchover.Delivery.Basic
import Switchover.Json.Decode
import Switchover.Json.Printer

/-!
Deliveries as JSON. A duplication is one flat object with the fields of its window and the number of
copies; the losses at the edges of a flow may be given as a flag instead of a count.
-/
namespace Switchover

open Json (Value Outline Decoded Form)

namespace Window

/-- The members of a window. -/
def members (w : Window) : List (String × Value) :=
  [("start_id", .word w.startId), ("end_id", .word w.endId),
    ("start_time", .real w.startTime), ("end_time", .real w.endTime)]

/-- A window as an object. -/
def toJson (w : Window) : Value := .table w.members

/-- The fields of a window. -/
def form : Form Window :=
  .lenient "Interval" ["start_id", "end_id", "start_time", "end_time"] 4 fun w field o =>
    match field with
    | "start_id" => return { w with startId := ← o.toUInt64 }
    | "end_id" => return { w with endId := ← o.toUInt64 }
    | "start_time" => return { w with startTime := ← o.toFloat }
    | "end_time" => return { w with endTime := ← o.toFloat }
    | _ => return w

/-- Reads a window. -/
def ofJson (o : Outline) : Decoded Window :=
  form.decode ⟨0, 0, 0, 0⟩ o

end Window

namespace Duplication

/-- A duplication as one flat object. -/
def toJson (d : Duplication) : Value :=
  .table (d.window.members ++ [("duplication_count", .int d.excess.toNat)])

/-- What has been read of a duplication: its copies, and the members left for its window. -/
structure Partial where
  excess : Option UInt32
  others : List (String × Outline)

/-- Reads one member, `level` brackets deep. The number of copies is read at once, the other members
are held until all are known. -/
def Partial.member (level : Nat) (p : Partial) (key value : Outline) : Decoded Partial := do
  let k ← key.toKey
  if k = "duplication_count" then
    match p.excess with
    | some _ => .error (.mismatch (.repeatedField k))
    | none => return { p with excess := some (← value.toUInt32) }
  else if value.isHeld (Json.deepest - level) then
    return { p with others := p.others ++ [(k, value)] }
  else .error .malformed

/-- Reads a duplication with `level` brackets around it. -/
def ofJson (level : Nat) : Outline → Decoded Duplication
  | .table members closed => do
    let p ← members.foldlM (fun (p : Partial) (k, v) => p.member (level + 1) k v) ⟨none, []⟩
    Outline.finish closed
    match p.excess with
    | none => .error (.mismatch (.missingField "duplication_count"))
    | some excess =>
      let window := p.others.map fun (k, v) => (Outline.text (some k), v)
      return ⟨← Window.ofJson (.table window true), excess⟩
  | o => o.refuse "struct Duplication"

end Duplication

namespace Delivery

/-- A delivery as an object. -/
def toJson (d : Delivery) : Value :=
  .table [("sent_packets", .word d.sent), ("received_packets", .word d.received),
    ("disruptions", .list (d.outages.map Window.toJson)),
    ("duplications", .list (d.duplications.map Duplication.toJson)),
    ("disruption_before_traffic", .word d.missingBefore),
    ("disruption_after_traffic", .word d.missingAfter)]

/-- A loss at an edge of the flow: a count, or a flag for one packet. -/
def edgeLoss (level : Nat) (o : Outline) : Decoded UInt64 :=
  Json.firstOf "Raw" level
    [fun o => o.toBool.map fun b => if b then 1 else 0, fun o => o.toUInt64] o

/-- The fields of a delivery with `level` brackets around it. -/
def form (level : Nat) : Form Delivery :=
  .lenient "DeliveryRecord"
    ["sent_packets", "received_packets", "disruptions", "duplications",
      "disruption_before_traffic", "disruption_after_traffic"] 2 fun d field o =>
    match field with
    | "sent_packets" => return { d with sent := ← o.toUInt64 }
    | "received_packets" => return { d with received := ← o.toUInt64 }
    | "disruptions" => return { d with outages := ← o.toList Window.ofJson }
    | "duplications" =>
      return { d with duplications := ← o.toList (Duplication.ofJson (level + 2)) }
    | "disruption_before_traffic" =>
      return { d with missingBefore := ← edgeLoss (level + 1) o }
    | "disruption_after_traffic" =>
      return { d with missingAfter := ← edgeLoss (level + 1) o }
    | _ => return d

/-- Reads a delivery with `level` brackets around it. -/
def ofJson (level : Nat) (o : Outline) : Decoded Delivery :=
  (form level).decode .nothing o

end Delivery

namespace Deliveries

/-- Deliveries as an object with the endpoints as its keys, in their natural order. -/
def toJson (ds : Deliveries) : Value :=
  .table (ds.entries.map fun (e, d) => (e.name, d.toJson))

/-- Reads deliveries. Of two members for one endpoint the later one counts. -/
def ofJson (o : Outline) : Decoded Deliveries :=
  (o.toMembers (Delivery.ofJson 1)).map fun entries =>
    .ofList (entries.map fun (name, d) => (⟨name⟩, d))

end Deliveries

end Switchover
