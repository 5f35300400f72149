/-!
# Sets of characters

Character properties are kept as ascending lists of inclusive code point
ranges; `Ranges.holds` looks a character up.
-/
namespace Flipbook.Text

/-- A set of code points, as inclusive ranges in ascending order. -/
abbrev Ranges := List (Nat × Nat)

/-- Whether the code point of a character lies in one of the ranges. -/
def Ranges.holds (ranges : Ranges) (c : Char) : Bool :=
  ranges.any fun range => range.1 ≤ c.toNat && c.toNat ≤ range.2

theorem Ranges.holds_iff {ranges : Ranges} {c : Char} :
    ranges.holds c = true ↔ ∃ range ∈ ranges, range.1 ≤ c.toNat ∧ c.toNat ≤ range.2 := by
  simp [Ranges.holds]

end Flipbook.Text
