/-!
# Sets of characters given by ranges

A `Ranges` table lists closed intervals of code points.
-/

namespace Chalk.Text

/-- Closed intervals of code points. -/
abbrev Ranges := List (Nat × Nat)

/-- Whether one of the intervals holds `code`. -/
def Ranges.has (table : Ranges) (code : Nat) : Bool :=
  table.any fun range => range.1 ≤ code && code ≤ range.2

theorem Ranges.has_iff {table : Ranges} {code : Nat} :
    table.has code = true ↔ ∃ range ∈ table, range.1 ≤ code ∧ code ≤ range.2 := by
  simp [Ranges.has]

end Chalk.Text
