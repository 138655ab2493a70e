/-!
# Ranges of code points

A set of characters is written as a list of closed ranges of code points in
ascending order.  `Ranges.includes` stops at the first range that lies above the
character, so a character of a low range is found at once however long the list is.
-/

namespace Rulebook.Text

/-- Closed ranges of code points, ascending and apart from each other. -/
abbrev Ranges := List (Nat × Nat)

/-- Whether one of the ranges holds the code point. -/
def Ranges.includes : Ranges → Nat → Bool
  | [], _ => false
  | (low, high) :: rest, code =>
      if code < low then false
      else if code ≤ high then true
      else Ranges.includes rest code

/-- Whether every range is in order and lies above the ranges before it. -/
def Ranges.ascendingFrom : Nat → Ranges → Bool
  | _, [] => true
  | least, (low, high) :: rest =>
      decide (least ≤ low) && decide (low ≤ high) && Ranges.ascendingFrom (high + 1) rest

example : Ranges.includes [(3, 5), (9, 9)] 4 = true := by decide
example : Ranges.includes [(3, 5), (9, 9)] 6 = false := by decide
example : Ranges.ascendingFrom 0 [(3, 5), (9, 9)] = true := by decide

end Rulebook.Text
