import Switchover.Endpoint.Order

/-!
Maps keyed by endpoint, as the list of their entries in natural order. Reading them from the front
visits the endpoints in the order in which reports name them.
-/
namespace Switchover

/-- One value for each of some endpoints, the entries in ascending order of the endpoint. -/
structure EndpointMap (α : Type) where
  entries : List (Endpoint × α)
  deriving Repr

namespace EndpointMap

variable {α β : Type}

/-- The map without entries. -/
def empty : EndpointMap α := ⟨[]⟩

instance : Inhabited (EndpointMap α) := ⟨empty⟩

/-- The endpoints of the map, ascending. -/
def keys (m : EndpointMap α) : List Endpoint :=
  m.entries.map (·.1)

/-- Whether the map has no entry. -/
def isEmpty (m : EndpointMap α) : Bool :=
  m.entries.isEmpty

/-- The value of `e` among some entries. -/
def find (e : Endpoint) : List (Endpoint × α) → Option α
  | [] => none
  | (k, v) :: rest => if e.order k = .eq then some v else find e rest

/-- The value of the endpoint `e`. -/
def get? (m : EndpointMap α) (e : Endpoint) : Option α :=
  find e m.entries

/-- Puts an entry in its place among ascending entries, over one of the same endpoint. -/
def insertEntry (e : Endpoint) (v : α) : List (Endpoint × α) → List (Endpoint × α)
  | [] => [(e, v)]
  | (k, w) :: rest =>
    match e.order k with
    | .lt => (e, v) :: (k, w) :: rest
    | .eq => (k, v) :: rest
    | .gt => (k, w) :: insertEntry e v rest

/-- The map with `v` as the value of `e`. -/
def insert (m : EndpointMap α) (e : Endpoint) (v : α) : EndpointMap α :=
  ⟨insertEntry e v m.entries⟩

/-- Puts an entry in its place among ascending entries, and hands out the value it replaces. -/
def exchangeEntry (e : Endpoint) (v : α) : List (Endpoint × α) → Option α × List (Endpoint × α)
  | [] => (none, [(e, v)])
  | (k, w) :: rest =>
    match e.order k with
    | .lt => (none, (e, v) :: (k, w) :: rest)
    | .eq => (some w, (k, v) :: rest)
    | .gt =>
      let (old, rest) := exchangeEntry e v rest
      (old, (k, w) :: rest)

/-- The value that `e` had, and the map with `v` as its value. -/
def exchange (m : EndpointMap α) (e : Endpoint) (v : α) : Option α × EndpointMap α :=
  let (old, entries) := exchangeEntry e v m.entries
  (old, ⟨entries⟩)

/-- The map without a value for `e`. -/
def erase (m : EndpointMap α) (e : Endpoint) : EndpointMap α :=
  ⟨m.entries.filter fun entry => e.order entry.1 ≠ .eq⟩

/-- The map built by inserting from left to right, so that a later value of one endpoint stays. -/
def ofList (entries : List (Endpoint × α)) : EndpointMap α :=
  entries.foldl (fun m entry => m.insert entry.1 entry.2) empty

/-- The map with every value replaced by what `f` makes of it. -/
def map (f : Endpoint → α → β) (m : EndpointMap α) : EndpointMap β :=
  ⟨m.entries.map fun entry => (entry.1, f entry.1 entry.2)⟩

end EndpointMap

end Switchover
