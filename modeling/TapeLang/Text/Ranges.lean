/-! Sets of characters given as ranges of code points. -/
namespace TapeLang.Text
set_option autoImplicit false

/-- A set of code points, as a list of ranges with both ends included. -/
abbrev Ranges : Type := List (Nat × Nat)

/-- Whether a character's code point lies in one of the ranges. -/
def Ranges.has (ranges : Ranges) (c : Char) : Bool :=
  ranges.any fun range => range.1 ≤ c.toNat && c.toNat ≤ range.2

theorem Ranges.has_eq_true_iff (ranges : Ranges) (c : Char) :
    ranges.has c = true ↔ ∃ range ∈ ranges, range.1 ≤ c.toNat ∧ c.toNat ≤ range.2 := by
  simp [Ranges.has]

end TapeLang.Text
