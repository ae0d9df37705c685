import Switchover.Delivery.Window

/-!
Outages that duplications bridge. When a link goes down, packets may be flooded between the failure
and the switchover, so that a few duplicates arrive in the middle of what is one outage. Going
through all windows by time, a window that starts at most one id behind the block so far joins it.
Blocks without an outage are of no interest afterwards.
-/
namespace Switchover

/-- The place of a number in the total order of binary64: by value, `-0` before `0`, numbers that
are none at the ends. `Float` has only one of these, without a sign, so all of them have the place
behind the infinite. -/
def timeRank (x : Float) : Int :=
  let n := x.toBits.toNat
  if n < Nat.pow 2 63 then n else (Nat.pow 2 63 : Int) - 1 - n

/-- Windows joined so far, and whether one of them is an outage. -/
structure Block where
  window : Window
  outage : Bool
  deriving Inhabited

/-- The id after `id`; there is none after the last one. -/
def nextId (id : UInt64) : UInt64 :=
  if id.toNat + 1 = UInt64.size then id else id + 1

namespace Block

/-- Whether `b` starts before the id behind the end of `a` has passed. -/
def touches (a b : Block) : Bool :=
  b.window.startId ≤ nextId a.window.endId

/-- Joins `b` to `a`. The end moves only if `b` reaches further. -/
def join (a b : Block) : Block :=
  let window :=
    if a.window.endId < b.window.endId then
      { a.window with endId := b.window.endId, endTime := b.window.endTime }
    else a.window
  ⟨window, a.outage || b.outage⟩

/-- Joins each block to the one before it as long as they touch. -/
def chain (current : Block) : List Block → List Block
  | [] => [current]
  | b :: rest => if current.touches b then chain (current.join b) rest else current :: chain b rest

end Block

/-- All windows, outages before duplications, in the order of their start times. -/
def windowsByTime (outages : List Window) (duplications : List Duplication) : List Block :=
  let blocks := outages.map (⟨·, true⟩) ++ duplications.map fun d => ⟨d.window, false⟩
  blocks.mergeSort fun a b => timeRank a.window.startTime ≤ timeRank b.window.startTime

/-- The outages once duplications next to them count as part of them. -/
def bridge (outages : List Window) (duplications : List Duplication) : List Window :=
  match windowsByTime outages duplications with
  | [] => []
  | b :: rest => ((Block.chain b rest).filter (·.outage)).map (·.window)

end Switchover
