import Switchover.Run.Coordination

/-!
The schedule of an undisturbed run: a party that can go on does so at once, the worker before the
coordinator, and the clock moves only when both wait, straight to the next time that one of them
waits for. Only a report of traffic that is overdue is not waited for any longer, so a run that
leaves no time for it at all never sees one.
-/
namespace Switchover

namespace Config

variable {σ : Type}

/-- The time that the worker waits for; `none` if it does not wait for one. -/
def workerWakes (d : Driver σ) (c : Config σ) : Option Nat :=
  match c.worker with
  | .running =>
    match d.act c.sight c.driver with
    | .wait (some t) => some (c.startedAt + t)
    | _ => none
  | _ => none

/-- Whether the worker has something to do. -/
def workerBusy (d : Driver σ) (c : Config σ) : Bool :=
  match c.worker with
  | .running =>
    match d.act c.sight c.driver with
    | .wait _ => false
    | _ => true
  | _ => false

/-- The time that the coordinator waits for; `none` if it does not wait for one. -/
def coordinatorWakes (r : Request) (c : Config σ) : Option Nat :=
  match c.phase with
  | .awaiting deadline => some deadline
  | .settling faultAt => some faultAt
  | .draining since _ looks => some (nextLook r since looks)
  | _ => none

/-- Whether the coordinator has something to do. -/
def coordinatorBusy (r : Request) (c : Config σ) : Bool :=
  match c.phase with
  | .starting | .examining _ => true
  | .awaiting deadline => c.ready || c.ended?.isSome || deadline ≤ c.now
  | .settling faultAt => faultAt ≤ c.now
  | .draining since _ looks => nextLook r since looks ≤ c.now
  | .joining _ => c.ended?.isSome
  | .done _ => false

/-- The earliest of some times that lies ahead. -/
def earliest (now : Nat) (times : List (Option Nat)) : Option Nat :=
  (times.filterMap id).foldl
    (fun best t => if t ≤ now then best else some (min t (best.getD t))) none

/-- Whether the time for the report of traffic is over. -/
def isOverdue (c : Config σ) : Bool :=
  match c.phase with
  | .awaiting deadline => deadline ≤ c.now
  | _ => false

/-- Whose turn is next; `none` once the run is done, or if both parties wait for ever. -/
def nextTurn (d : Driver σ) (r : Request) (c : Config σ) : Option Turn :=
  if c.isOverdue then some .coordinator
  else if c.workerBusy d then some .worker
  else if c.coordinatorBusy r then some .coordinator
  else
    match c.phase with
    | .done _ => none
    | _ => (earliest c.now [c.workerWakes d, c.coordinatorWakes r]).map fun t => .clock (t - c.now)

/-- The states that the schedule brings a run to. -/
inductive Scheduled (d : Driver σ) (r : Request) (c : Config σ) : Config σ → Prop
  | start : Scheduled d r c c
  | turn {c' : Config σ} {turn : Turn} (h : Scheduled d r c c')
      (hturn : c'.nextTurn d r = some turn) : Scheduled d r c (c'.step d r turn)

/-- Where the schedule has no turn left for a run. -/
structure Rest (d : Driver σ) (r : Request) (c : Config σ) where
  final : Config σ
  scheduled : Scheduled d r c final
  idle : final.nextTurn d r = none

/-- Takes the turn that is next, or comes to rest. -/
def advance (d : Driver σ) (r : Request) (c : Config σ) :
    { c' // Scheduled d r c c' } → Id ({ c' // Scheduled d r c c' } ⊕ Option (Rest d r c))
  | ⟨c', h⟩ =>
    match hturn : c'.nextTurn d r with
    | none => .inr (some ⟨c', h, hturn⟩)
    | some turn => .inl ⟨c'.step d r turn, h.turn hturn⟩

/-- Takes turns until there is none left; nothing if there is always another one. -/
def settle (d : Driver σ) (r : Request) (c : Config σ) : Option (Rest d r c) :=
  (repeatM (advance d r c) ⟨c, .start⟩).run

end Config

/-- Where an undisturbed run leads from its beginning. One that goes on for ever leads nowhere. -/
def Driver.conduct {σ : Type} (d : Driver σ) (r : Request) (driver : σ) : Config σ :=
  let start := Config.initial driver
  match start.settle d r with
  | some rest => rest.final
  | none => start

/-- The outcome of a run; `none` if it is not over. -/
def Config.outcome? {σ : Type} (c : Config σ) : Option (Except RunError (Finished σ)) :=
  match c.phase with
  | .done outcome => some outcome
  | _ => none

end Switchover
