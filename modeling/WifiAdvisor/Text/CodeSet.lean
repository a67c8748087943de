/-!
Sets of code points, as standards give them: by ranges. A set is written down as the ascending list
of the places where membership changes, so a code point belongs to it when an odd number of them
lie at or before it.
-/

namespace WifiAdvisor.Text

/-- The half-open ranges between the first and second, third and fourth, … boundary. -/
structure CodeSet where
  boundaries : List Nat

namespace CodeSet

def odd : List Nat → Nat → Bool
  | [], _ => false
  | b :: rest, n => if n < b then false else !odd rest n

def contains (s : CodeSet) (c : Char) : Bool := odd s.boundaries c.toNat

end CodeSet

end WifiAdvisor.Text
