/-!
# Tables of ranges

A set of code points is written as an array of closed ranges in increasing order, with a gap
between each range and the next.  Membership is found by halving: `locate` keeps a window of ranges
in which alone the code point can lie.
-/

namespace ContractHost.Text

/-- Whether the code point lies in one of the ranges from index `low` on and before `high`.  Each
step halves the window, so `steps` need not be larger than its width. -/
def locate (table : Array (Nat × Nat)) (code : Nat) : (steps low high : Nat) → Bool
  | 0, _, _ => false
  | steps + 1, low, high =>
    if low < high then
      let middle := (low + high) / 2
      match table[middle]? with
      | none => false
      | some (first, last) =>
        if code < first then locate table code steps low middle
        else if last < code then locate table code steps (middle + 1) high
        else true
    else false

/-- Whether the code point lies in one of the ranges of the table. -/
def inRanges (table : Array (Nat × Nat)) (code : Nat) : Bool :=
  locate table code (table.size + 1) 0 table.size

end ContractHost.Text
