import Switchover.Text.Blank
import Switchover.Text.Numeral
import Switchover.Text.Quoted
import Switchover.Traffic.Plan

/-!
Packets named on a command line: `40..55` for a range of lost ids, both included, and `70:2` for an
id with two extra copies. Blanks may stand around each number.
-/
namespace Switchover.CommandLine

open Text (NumeralFault quoted)

/-- Why a text names no packets. -/
inductive PacketsFault where
  /-- The separator is missing. -/
  | expected (shape : String) (text : String)
  | badNumber (what : String) (text : String) (fault : NumeralFault)
  /-- A range ends before it starts. -/
  | emptyRange (text : String)
  | tooManyCopies (count : UInt32)
  deriving DecidableEq, Repr

/-- The most extra copies of a packet that one argument may ask for, since every copy is held in
memory. -/
def mostCopies : UInt32 := 1000

namespace PacketsFault

/-- The fault in words. -/
def message : PacketsFault → String
  | expected shape text => "expected " ++ shape ++ ", got " ++ quoted text
  | badNumber what text fault => "bad " ++ what ++ " " ++ quoted text ++ ": " ++ fault.message
  | emptyRange text => "empty loss window " ++ text
  | tooManyCopies count =>
    "at most " ++ toString mostCopies.toNat ++ " extra copies per packet, got "
      ++ toString count.toNat

end PacketsFault

/-- The texts before and behind the first occurrence of a separator. -/
def splitAtFirst (separator : List Char) : List Char → Option (List Char × List Char)
  | [] => none
  | c :: s =>
    if separator.isPrefixOf (c :: s) then some ([], (c :: s).drop separator.length)
    else (splitAtFirst separator s).map fun (before, behind) => (c :: before, behind)

/-- A number between blanks. -/
def number {α : Type} (read : List Char → Except NumeralFault α) (what : String) (s : List Char) :
    Except PacketsFault α :=
  (read (Text.trim s)).mapError (.badNumber what (String.ofList s))

/-- The range of ids that a text names. -/
def lossRange (s : String) : Except PacketsFault IdRange :=
  match splitAtFirst ['.', '.'] s.toList with
  | none => .error (.expected "START..END" s)
  | some (first, last) => do
    let first ← number Text.readUInt64 "start" first
    let last ← number Text.readUInt64 "end" last
    if last < first then .error (.emptyRange s) else return ⟨first, last⟩

/-- The id that a text names, with its number of extra copies. -/
def extraCopies (s : String) : Except PacketsFault (UInt64 × UInt32) :=
  match splitAtFirst [':'] s.toList with
  | none => .error (.expected "ID:COPIES" s)
  | some (id, copies) => do
    let id ← number Text.readUInt64 "id" id
    let copies ← number Text.readUInt32 "copy count" copies
    if mostCopies < copies then .error (.tooManyCopies copies) else return (id, copies)

end Switchover.CommandLine
