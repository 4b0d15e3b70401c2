/-! The numbers that relationships carry. Algorithms are written once over this class and run on
doubles; over the rationals the same definitions are exact. -/
namespace CommunityGraph

class Weight (α : Type) extends Add α, Sub α, Mul α, Div α where
  zero : α
  one : α
  /-- Where a running sum starts: adding it changes no value, not even the sign of a zero. -/
  sumStart : α
  lt : α → α → Bool
  le : α → α → Bool
  eq : α → α → Bool
  least : α → α → α
  greatest : α → α → α
  isFinite : α → Bool
  text : α → String

namespace Weight
variable {α : Type} [Weight α]

def sum (values : List α) : α := values.foldl (· + ·) sumStart

def accumulate (values : List α) : α := values.foldl (· + ·) zero

end Weight

instance : Weight Rat where
  zero := 0
  one := 1
  sumStart := 0
  lt a b := decide (a < b)
  le a b := decide (a ≤ b)
  eq a b := decide (a = b)
  least a b := if b ≤ a then b else a
  greatest a b := if a ≤ b then b else a
  isFinite _ := true
  text q := toString q.num ++ "/" ++ toString q.den

end CommunityGraph
