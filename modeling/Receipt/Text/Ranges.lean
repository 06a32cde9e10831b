/-!
# Sets of characters given by ranges

A character class of the standard is a list of closed ranges of code points. The classes built on
it settle ASCII by a direct rule, so their tables hold only what lies above it.
-/
namespace Receipt.Text

/-- Closed ranges of code points. -/
abbrev Ranges := List (Nat × Nat)

/-- Whether some range of the table holds the code point. -/
def Ranges.has (table : Ranges) (n : Nat) : Bool :=
  table.any fun r => r.1 ≤ n && n ≤ r.2

theorem Ranges.has_iff {table : Ranges} {n : Nat} :
    table.has n = true ↔ ∃ r ∈ table, r.1 ≤ n ∧ n ≤ r.2 := by
  simp [Ranges.has]

/-- The start of the range that holds the code point. -/
def Ranges.start? (table : Ranges) (n : Nat) : Option Nat :=
  (table.find? fun r => r.1 ≤ n && n ≤ r.2).map (·.1)

end Receipt.Text
