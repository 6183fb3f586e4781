/-!
# Ranges of code points

A class of characters as the ranges of its code points, each given by its first and its last one.
-/

namespace DataModel.Text

/-- Ranges of code points, in order and without overlap. -/
abbrev CodeRanges := List (Nat × Nat)

namespace CodeRanges

/-- The character lies in one of the ranges. -/
def contains (ranges : CodeRanges) (c : Char) : Bool :=
  ranges.any fun (first, last) => first ≤ c.toNat && c.toNat ≤ last

theorem contains_iff {ranges : CodeRanges} {c : Char} :
    ranges.contains c = true ↔ ∃ r ∈ ranges, r.1 ≤ c.toNat ∧ c.toNat ≤ r.2 := by
  simp [contains, List.any_eq_true]

end CodeRanges

end DataModel.Text
