/-! Sets of characters as ranges of code points, ends included. -/
namespace CommunityGraph.Text

abbrev Ranges := List (Nat × Nat)

def Ranges.has (ranges : Ranges) (c : Char) : Bool :=
  ranges.any fun (first, last) => first ≤ c.toNat && c.toNat ≤ last

end CommunityGraph.Text
