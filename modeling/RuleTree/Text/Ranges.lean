/-!
# Sets of characters as rows of ranges

A row of closed ranges of code points in ascending order, and the search for a code point in it.
-/

namespace RuleTree.Text

/-- Closed ranges of code points, ascending and apart. -/
abbrev Ranges := Array (Nat × Nat)

/-- Halving search between two positions of the row. -/
def Ranges.searchBetween (rs : Ranges) (n lo hi : Nat) : Bool :=
  if h : lo < hi ∧ hi ≤ rs.size then
    let mid := (lo + hi) / 2
    have hm : mid < rs.size := by omega
    let r := rs[mid]
    if n < r.1 then rs.searchBetween n lo mid
    else if r.2 < n then rs.searchBetween n (mid + 1) hi
    else true
  else false
termination_by hi - lo

def Ranges.contains (rs : Ranges) (n : Nat) : Bool := rs.searchBetween n 0 rs.size

end RuleTree.Text
