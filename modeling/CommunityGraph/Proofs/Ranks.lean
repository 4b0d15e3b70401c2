import Mathlib
import CommunityGraph.Decimal.Double

/-! The order of the values that weights are compared by. Rationals are all in one order; so are doubles,
with one place for both zeros, but for not-a-number, which has no place and compares with nothing. -/
namespace CommunityGraph

/-- Places in an order for all values but those, such as not-a-number, that compare with nothing. -/
structure Ranks {α β : Type} [Weight α] [LinearOrder β] (rank : α → Option β) : Prop where
  lt : ∀ a b, Weight.lt a b = true ↔ ∃ x ∈ rank a, ∃ y ∈ rank b, x < y
  eq : ∀ a b, Weight.eq a b = true ↔ rank a = rank b ∧ rank a ≠ none

theorem exactRanks : Ranks (some : Rat → Option Rat) where
  lt a b := by simp [Weight.lt]
  eq a b := by simp [Weight.eq]

namespace Double
open Float.Model UnpackedFloat

/-- By sign and size: the exponent decides before the digits do, and both the other way round below zero. -/
def unpackedRank : UnpackedFloat → Option (ℤ ×ₗ ℤ ×ₗ ℤ)
  | .notANumber => none
  | .infinity .negative => some (toLex (-2, toLex (0, 0)))
  | .finite .negative digits exponent _ => some (toLex (-1, toLex (-exponent, -digits)))
  | .zero _ => some (toLex (0, toLex (0, 0)))
  | .finite .positive digits exponent _ => some (toLex (1, toLex (exponent, digits)))
  | .infinity .positive => some (toLex (2, toLex (0, 0)))

theorem unpackedLt (a b : UnpackedFloat) :
    a.lt b = true ↔ ∃ x ∈ unpackedRank a, ∃ y ∈ unpackedRank b, x < y := by
  have signs : compare Sign.negative Sign.positive = .lt := rfl
  rcases a with (_ | _) | _ | _ | ⟨_ | _, digits, exponent, _⟩ <;>
    rcases b with (_ | _) | _ | _ | ⟨_ | _, digits', exponent', _⟩ <;>
    simp [UnpackedFloat.lt, UnpackedFloat.compare, unpackedRank, Prod.Lex.toLex_lt_toLex,
      Ordering.then_eq_lt, Ordering.then_eq_gt, Int.compare_eq_lt, Int.compare_eq_gt, Nat.compare_eq_gt,
      Nat.compare_eq_lt, signs]

theorem unpackedEq (a b : UnpackedFloat) :
    a.beq b = true ↔ unpackedRank a = unpackedRank b ∧ unpackedRank a ≠ none := by
  have same (sign : Sign) : compare sign sign = .eq := by cases sign <;> rfl
  rcases a with (_ | _) | _ | _ | ⟨_ | _, digits, exponent, _⟩ <;>
    rcases b with (_ | _) | _ | _ | ⟨_ | _, digits', exponent', _⟩ <;>
    simp [UnpackedFloat.beq, UnpackedFloat.compare, unpackedRank, same, Ordering.then_eq_eq]

def rank (x : Float) : Option (ℤ ×ₗ ℤ ×ₗ ℤ) := unpackedRank x.toModel.unpack

theorem doubleRanks : Ranks rank where
  lt a b := by
    have model : a < b ↔ a.toModel.unpack.lt b.toModel.unpack = true := decide_eq_true_iff
    exact decide_eq_true_iff.trans (model.trans (unpackedLt _ _))
  eq a b := unpackedEq a.toModel.unpack b.toModel.unpack

end Double
end CommunityGraph
