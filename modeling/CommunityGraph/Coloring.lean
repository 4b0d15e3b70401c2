import CommunityGraph.Graph
import CommunityGraph.Renumber
import CommunityGraph.Shuffle
import CommunityGraph.Storage.Memory

/-! Greedy colorings: each node in turn takes the least color that none of its neighbours has. -/
namespace CommunityGraph

inductive Coloring where
  | greedy
  | randomOrder (seed : UInt64)
  deriving DecidableEq, Repr

namespace Coloring
variable {α : Type}

/-- The least number from `color` on that is not used; one of `fuel` numbers in a row is free when
fewer than that are used. -/
def leastFree (used : List Nat) : Nat → Nat → Nat
  | 0, color => color
  | fuel + 1, color => if color ∈ used then leastFree used fuel (color + 1) else color

def usedColors (network : Network α) (colors : Array (Option Nat)) (node : Nat) : List Nat :=
  (network.targets node).filterMap fun target =>
    if target = node then none else (colors[target]?).join

def colorNode (network : Network α) (colors : Array (Option Nat)) (node : Nat) :
    Array (Option Nat) :=
  let used := usedColors network colors node
  colors.setIfInBounds node (some (leastFree used used.length 0))

def inOrder (network : Network α) (order : List Nat) : List Nat :=
  let colors := order.foldl (colorNode network) (Array.replicate network.nodeCount none)
  colors.toList.map fun color => color.getD 0

def order (c : Coloring) (nodeCount : Nat) : List Nat :=
  match c with
  | greedy => List.range nodeCount
  | randomOrder seed => shuffled seed nodeCount

def colors (c : Coloring) (network : Network α) : List Nat :=
  inOrder network (c.order network.nodeCount)

end Coloring

def colorClasses (colors : List Nat) : List (List Nat) := classify (labelBound colors) colors

def colorClasses? (colors : List Nat) : Option (List (List Nat)) :=
  if Memory.canAsk (labelBound colors) 24 then some (colorClasses colors) else none

end CommunityGraph
