import Switchover.Traffic.Direction

/-!
The switches under test and the mux ports of the servers. A host is known by its name and by facts
gathered from it; one fact tells whether it is a virtual switch, whose timing means nothing.
-/
namespace Switchover

open Json (Value Outline Decoded Form)

/-- A switch under test. Of two facts with one key the first one counts. -/
structure Host where
  name : String
  facts : List (String × String)
  deriving DecidableEq, Repr, Inhabited

namespace Host

/-- The fact that names the switching chip. -/
def asicFact : String := "asic_type"

/-- The chip of a virtual switch. -/
def virtualAsic : String := "vs"

/-- Records a fact, over an earlier one with its key. -/
def withFact (h : Host) (key value : String) : Host :=
  { h with facts := (key, value) :: h.facts.filter (·.1 != key) }

/-- A host whose chip is known. -/
def ofAsic (name asic : String) : Host :=
  withFact ⟨name, []⟩ asicFact asic

/-- The value of a fact. -/
def fact? (h : Host) (key : String) : Option String :=
  h.facts.lookup key

/-- The chip of the host. -/
def asic? (h : Host) : Option String :=
  h.fact? asicFact

/-- Whether the host is a virtual switch. -/
def isVirtual (h : Host) : Bool :=
  h.asic? == some virtualAsic

/-- A host as an object. -/
def toJson (h : Host) : Value :=
  .table [("hostname", .text h.name),
    ("facts", .table (h.facts.map fun (k, v) => (k, .text v)))]

/-- The fields of a host. -/
def form : Form Host :=
  .lenient "DutHost" ["hostname", "facts"] 1 fun h field o =>
    match field with
    | "hostname" => return { h with name := ← o.toText }
    | "facts" => do
      let entries ← o.toMembers Outline.toText
      return entries.foldl (fun h (k, v) => h.withFact k v) { h with facts := [] }
    | _ => return h

/-- Reads a host. -/
def ofJson (o : Outline) : Decoded Host :=
  form.decode ⟨"", []⟩ o

end Host

/-- Why the testbed cannot serve a request. -/
inductive TestbedError where
  | incompletePair (found : Nat)
  | notEnoughMuxPorts (cable : Cable) (requested available : Nat)
  deriving DecidableEq, Repr

namespace TestbedError

/-- The error in words. -/
def message : TestbedError → String
  | incompletePair found => "dual-ToR testbed needs two DUTs, found " ++ toString found
  | notEnoughMuxPorts cable requested available =>
    "cannot select " ++ toString requested ++ " " ++ cable.display ++ " mux ports, only "
      ++ toString available ++ " available"

end TestbedError

/-- The other switch of the pair that the first two hosts form. -/
def peerOf (hosts : List Host) (active : Host) : Except TestbedError Host :=
  match hosts with
  | first :: second :: _ => .ok (if first.name = active.name then second else first)
  | _ => .error (.incompletePair hosts.length)

/-- The mux ports of the testbed by the way they are cabled. -/
structure MuxPorts where
  activeActive : List String
  activeStandby : List String
  deriving DecidableEq, Repr, Inhabited

namespace MuxPorts

/-- The ports with one cabling. -/
def ports (m : MuxPorts) : Cable → List String
  | .activeActive => m.activeActive
  | .activeStandby => m.activeStandby

/-- Takes `count` of the ports one after the other, each at the place that `draw` picks among those
left. -/
def take (draw : Nat → Nat) : (count : Nat) → List String → List String
  | 0, _ => []
  | count + 1, ports =>
    let i := draw ports.length % ports.length
    (ports[i]?.toList) ++ take draw count (ports.eraseIdx i)

/-- Picks `count` different ports with one cabling. -/
def select (m : MuxPorts) (draw : Nat → Nat) (cable : Cable) (count : Nat) :
    Except TestbedError (List String) :=
  let ports := m.ports cable
  if ports.length < count then .error (.notEnoughMuxPorts cable count ports.length)
  else .ok (take draw count ports)

/-- Mux ports as an object. -/
def toJson (m : MuxPorts) : Value :=
  .table [("active_active", .list (m.activeActive.map Value.text)),
    ("active_standby", .list (m.activeStandby.map Value.text))]

/-- The fields of the mux ports. -/
def form : Form MuxPorts :=
  .lenient "MuxPortInventory" ["active_active", "active_standby"] 0 fun m field o =>
    match field with
    | "active_active" => return { m with activeActive := ← o.toList Outline.toText }
    | "active_standby" => return { m with activeStandby := ← o.toList Outline.toText }
    | _ => return m

/-- Reads mux ports. -/
def ofJson (o : Outline) : Decoded MuxPorts :=
  form.decode ⟨[], []⟩ o

end MuxPorts

end Switchover
