/-!
# Ranges of code points

Classes of characters as lists of closed ranges.
-/

namespace Switchboard

abbrev CodePoints := List (Nat × Nat)

namespace CodePoints

def has (ranges : CodePoints) (c : Char) : Bool :=
  ranges.any fun r => r.1 ≤ c.toNat && c.toNat ≤ r.2

/-- No range is empty, and each begins behind a gap. -/
def isAscending : CodePoints → Bool
  | [] => true
  | [r] => r.1 ≤ r.2
  | r :: s :: rest => r.1 ≤ r.2 && r.2 + 1 < s.1 && isAscending (s :: rest)

end CodePoints

end Switchboard
