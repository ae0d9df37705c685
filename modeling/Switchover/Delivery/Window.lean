/-!
Windows between two packets of one flow, and the two things a window can report: an outage, bounded
by the last packet seen before it and the first one after it, or packets that arrived more than
once.
-/
namespace Switchover

/-- A stretch of a flow from one sequence id to another, with the capture times in seconds. -/
structure Window where
  startId : UInt64
  endId : UInt64
  startTime : Float
  endTime : Float
  deriving Inhabited

/-- The length of the window in seconds. -/
def Window.duration (w : Window) : Float :=
  w.endTime - w.startTime

/-- A sequence id, or a run of them, that arrived more often than it was sent. -/
structure Duplication where
  window : Window
  /-- The copies beyond the one that was sent. -/
  excess : UInt32
  deriving Inhabited

/-- The lesser of two times. A time that is not a number does not count against one that is. -/
def earlier (a b : Float) : Float :=
  if a.isNaN then b else if b < a then b else a

/-- The greater of two times. A time that is not a number does not count against one that is. -/
def later (a b : Float) : Float :=
  if a.isNaN then b else if a < b then b else a

end Switchover
