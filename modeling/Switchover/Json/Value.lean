/-!
JSON values as this library writes them: numbers keep their kind, and the members of an object keep
their order.
-/
namespace Switchover.Json

/-- A JSON value to be written. -/
inductive Value where
  | null
  | bool (b : Bool)
  | int (n : Int)
  | real (x : Float)
  | text (s : String)
  | list (items : List Value)
  | table (members : List (String × Value))
  deriving Inhabited

namespace Value

/-- A natural number. -/
def nat (n : Nat) : Value := .int n

/-- A 64-bit count or identifier. -/
def word (n : UInt64) : Value := .int n.toNat

/-- A value that may be absent, written as `null` then. -/
def optional {α : Type} (f : α → Value) : Option α → Value
  | none => .null
  | some a => f a

end Value

end Switchover.Json
