/-!
# Sets of code points as increasing ranges

A Unicode property is a set of code points.  It is kept here as a list of closed ranges in
increasing order, so that a look-up can stop at the first range that begins beyond the code point.
-/

namespace LuaUnveil

/-- Closed ranges of code points, each one beginning above the end of the one before it. -/
abbrev Ranges := List (Nat × Nat)

/-- Whether a code point lies in one of the ranges.  The search stops at the first range that
begins above the code point, which is sound because the ranges increase. -/
def Ranges.contains : Ranges → Nat → Bool
  | [], _ => false
  | (low, high) :: later, n => if n < low then false else n ≤ high || contains later n

end LuaUnveil
