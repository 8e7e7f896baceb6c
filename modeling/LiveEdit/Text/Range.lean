/-
  LiveEdit.Text.Range — sets of code points given as a table of closed ranges.
-/

namespace LiveEdit.Text

/-- `n` lies in one of the closed ranges. -/
def inRanges (ranges : List (Nat × Nat)) (n : Nat) : Bool :=
  ranges.any fun r => r.1 ≤ n && n ≤ r.2

end LiveEdit.Text
