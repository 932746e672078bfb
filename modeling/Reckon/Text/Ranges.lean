/-!
# Ranges of code points

Character classes are lists of closed ranges of code points, in increasing order and apart from
each other. `mem` is then a search that stops at the first range above the code point.
-/

namespace Reckon

/-- A class of characters, as increasing closed ranges of code points. -/
abbrev CodeRanges := List (Nat × Nat)

namespace CodeRanges

/-- Whether a code point lies in one of the ranges. -/
def mem (n : Nat) : CodeRanges → Bool
  | [] => false
  | (low, high) :: rest => if n < low then false else n ≤ high || mem n rest

end CodeRanges

end Reckon
