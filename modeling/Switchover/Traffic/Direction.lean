import Switchover.Json.Decode
import Switchover.Json.Printer
import Switchover.Text.Blank

/-!
The directions in which test traffic crosses the switch pair, the ways servers are cabled to it, and
the places the traffic is sent to.
-/
namespace Switchover

open Json (Value Outline Decoded)

/-- Where traffic comes from and where it goes. -/
inductive Direction where
  | t1ToServer
  | serverToT1
  | socToT1
  | t1ToSoc
  | serverToServer
  deriving DecidableEq, Repr, Inhabited

namespace Direction

/-- The name of a direction, in files and in messages. -/
def name : Direction → String
  | t1ToServer => "t1_to_server"
  | serverToT1 => "server_to_t1"
  | socToT1 => "soc_to_t1"
  | t1ToSoc => "t1_to_soc"
  | serverToServer => "server_to_server"

/-- All directions. -/
def all : List Direction :=
  [t1ToServer, serverToT1, socToT1, t1ToSoc, serverToServer]

/-- One character of a typed name: case does not matter, and a dash stands for an underscore. -/
def plainChar (c : Char) : Char :=
  if c = '-' then '_' else c.toLower

/-- The direction that a person typed, with blanks around the name. -/
def ofText? (s : String) : Option Direction :=
  let plain := String.ofList ((Text.trim s.toList).map plainChar)
  all.find? fun d => d.name == plain

/-- What is said about a text that names no direction. -/
def complaint (s : String) : String :=
  "unknown traffic direction " ++ Text.quoted s

/-- A direction by its name. -/
def toJson (d : Direction) : Value := .text d.name

/-- Reads the exact name of a direction. -/
def ofJson (o : Outline) : Decoded Direction :=
  o.toWord (all.map fun d => (d.name, d))

end Direction

/-- How servers are cabled to the switch pair. -/
inductive Cable where
  | activeStandby
  | activeActive
  deriving DecidableEq, Repr, Inhabited

namespace Cable

/-- The name of a cabling in messages. -/
def display : Cable → String
  | activeStandby => "active-standby"
  | activeActive => "active-active"

/-- The name of a cabling in files. -/
def name : Cable → String
  | activeStandby => "active_standby"
  | activeActive => "active_active"

/-- Both cablings. -/
def all : List Cable := [activeStandby, activeActive]

/-- A cabling by its name. -/
def toJson (c : Cable) : Value := .text c.name

/-- Reads the exact name of a cabling. -/
def ofJson (o : Outline) : Decoded Cable :=
  o.toWord (all.map fun c => (c.name, c))

end Cable

/-- The endpoints that traffic is addressed to. -/
inductive Destination where
  /-- Servers of the testbed, at random if the sender wants that. -/
  | servers
  /-- The server behind a VLAN member port. -/
  | vlanPort (port : String)
  /-- The servers behind some mux ports. -/
  | muxPorts (ports : List String)
  deriving DecidableEq, Repr, Inhabited

end Switchover
