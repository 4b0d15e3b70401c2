import CommunityGraph.Decimal.Shortest
import CommunityGraph.Weight

/-! Doubles as weights. The lesser and the greater of two ignore not-a-number, and of two equal
zeros the second is taken. -/
namespace CommunityGraph

def leastDouble (a b : Float) : Float := if a.isNaN || b ≤ a then b else a

def greatestDouble (a b : Float) : Float := if a.isNaN || a ≤ b then b else a

instance : Weight Float where
  zero := 0.0
  one := 1.0
  sumStart := -0.0
  lt a b := decide (a < b)
  le a b := decide (a ≤ b)
  eq a b := a == b
  least := leastDouble
  greatest := greatestDouble
  isFinite := Float.isFinite
  text := Decimal.text

end CommunityGraph
