/-
# `Text.Ranges` — character classes given by ranges of code points
-/

namespace JestMigration.Text

/-- Does one of the ranges, both ends included, hold the code point of `c`? -/
def inRanges (ranges : List (Nat × Nat)) (c : Char) : Bool :=
  ranges.any fun range => decide (range.1 ≤ c.toNat) && decide (c.toNat ≤ range.2)

end JestMigration.Text
