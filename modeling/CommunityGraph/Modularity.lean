import CommunityGraph.Graph

/-! Modularity of a division into communities: the share of weight inside communities, less the
share that random relationships of the same degrees would have there. -/
namespace CommunityGraph.Modularity
variable {α : Type} [Weight α]

def innerWeight (network : Network α) (communities : Array Nat) (node : Nat) : α :=
  let own := communities.getD node 0
  Weight.accumulate (((network.row node).filter fun (target, _) =>
    communities.getD target 0 = own).map Prod.snd)

def halvedSum (values : List α) : α :=
  if values.length < 2 then Weight.sum values
  else
    let half := values.length / 2
    Weight.sum (values.take half) + Weight.sum (values.drop half)

def addTotals (degrees : Array α) : Nat → List Nat → Array α → Array α
  | _, [], totals => totals
  | node, community :: rest, totals =>
      addTotals degrees (node + 1) rest
        (totals.modify community fun total => total + degrees.getD node Weight.zero)

def communityTotals (communities : Array Nat) (degrees : Array α) : Array α :=
  addTotals degrees 0 communities.toList (Array.replicate communities.size Weight.zero)

def modularity (network : Network α) (communities : Array Nat) (degrees : Array α)
    (total : α) : α :=
  if Weight.le total Weight.zero then Weight.zero
  else
    let inner := halvedSum ((List.range network.nodeCount).map (innerWeight network communities))
    let expected := Weight.sum ((communityTotals communities degrees).toList.map fun part =>
      (part / total) * (part / total))
    inner / total - expected

def Covers (network : Network α) (communities : Array Nat) : Bool :=
  communities.size = network.nodeCount &&
    communities.all fun community => community < communities.size

def modularity? (network : Network α) (communities : Array Nat) (degrees : Array α) (total : α) :
    Option α :=
  if Weight.le total Weight.zero || Covers network communities then
    some (modularity network communities degrees total)
  else none

end CommunityGraph.Modularity
