/-!
Classes of code points, written as their boundaries: the ascending code points at which membership
changes, starting with the first member. A code point belongs to the class when an odd number of
boundaries lies at or below it.
-/
namespace Switchover.Text

/-- Membership of the code point `n` in the class with these boundaries. -/
def inClass : List Nat → Nat → Bool
  | [], _ => false
  | b :: bs, n => if b ≤ n then !inClass bs n else false

end Switchover.Text
