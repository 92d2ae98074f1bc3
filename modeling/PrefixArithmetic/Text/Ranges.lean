/-!
# Ranges of code points

A character property is a list of inclusive ranges of code points.
-/
namespace PrefixArithmetic.Text

abbrev Ranges := List (Nat × Nat)

/-- The property with these ranges holds of the character. -/
def Ranges.cover (ranges : Ranges) (c : Char) : Bool :=
  ranges.any fun range => range.1 ≤ c.toNat && c.toNat ≤ range.2

theorem Ranges.cover_iff {ranges : Ranges} {c : Char} :
    ranges.cover c ↔ ∃ range ∈ ranges, range.1 ≤ c.toNat ∧ c.toNat ≤ range.2 := by
  simp [cover]

end PrefixArithmetic.Text
