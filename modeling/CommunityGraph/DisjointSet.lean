import CommunityGraph.Renumber

/-! Disjoint sets over `0 .. n`. The smaller set is linked under the larger one, of equal ones the
set with the greater root; searching for a root halves the path to it. -/
namespace CommunityGraph

structure DisjointSet where
  parents : Array Nat
  sizes : Array Nat
  deriving Repr

namespace DisjointSet

def make (n : Nat) : DisjointSet := ⟨Array.range n, Array.replicate n 1⟩

def length (d : DisjointSet) : Nat := d.parents.size

def parent (d : DisjointSet) (node : Nat) : Nat := d.parents.getD node node

def size (d : DisjointSet) (node : Nat) : Nat := d.sizes.getD node 0

/-- Climbs to the root. Every second node on the way is linked to its grandparent. -/
def climb : Nat → Array Nat → Nat → Nat × Array Nat
  | 0, parents, node => (node, parents)
  | fuel + 1, parents, node =>
      let up := parents.getD node node
      if up = node then (node, parents)
      else
        let further := parents.getD up up
        climb fuel (parents.setIfInBounds node further) further

/-- The root of the set of `node`. No path is longer than there are nodes. -/
def find (d : DisjointSet) (node : Nat) : Nat × DisjointSet :=
  match d with
  | ⟨parents, sizes⟩ =>
      match climb parents.size parents node with
      | (root, parents) => (root, ⟨parents, sizes⟩)

def link (d : DisjointSet) (rootA rootB : Nat) : DisjointSet :=
  let sizeA := d.size rootA
  let sizeB := d.size rootB
  let (root, child) :=
    if sizeB < sizeA then (rootA, rootB)
    else if sizeA < sizeB then (rootB, rootA)
    else (min rootA rootB, max rootA rootB)
  match d with
  | ⟨parents, sizes⟩ =>
      ⟨parents.setIfInBounds child root, sizes.setIfInBounds root (sizeA + sizeB)⟩

def union (d : DisjointSet) (a b : Nat) : Bool × DisjointSet :=
  match d.find a with
  | (rootA, d) =>
      match d.find b with
      | (rootB, d) => if rootA = rootB then (false, d) else (true, d.link rootA rootB)

def sameSet (d : DisjointSet) (a b : Nat) : Bool × DisjointSet :=
  match d.find a with
  | (rootA, d) =>
      match d.find b with
      | (rootB, d) => (rootA = rootB, d)

def setSize (d : DisjointSet) (node : Nat) : Nat × DisjointSet :=
  match d.find node with
  | (root, d) => (d.size root, d)

def roots (d : DisjointSet) : List Nat → List Nat × DisjointSet
  | [] => ([], d)
  | node :: nodes =>
      match d.find node with
      | (root, d) =>
          match roots d nodes with
          | (found, d) => (root :: found, d)

def communities (d : DisjointSet) : List Nat × DisjointSet := d.roots (List.range d.length)

def setCount (d : DisjointSet) : Nat :=
  (List.range d.length).countP fun node => d.parent node = node

def consecutiveIds (d : DisjointSet) : List Nat × DisjointSet :=
  match d.communities with
  | (labels, d) => (renumber labels, d)

def unions (d : DisjointSet) : List (Nat × Nat) → Nat × DisjointSet
  | [] => (0, d)
  | (a, b) :: pairs =>
      match d.union a b with
      | (merged, d) =>
          match unions d pairs with
          | (count, d) => (if merged then count + 1 else count, d)

end DisjointSet
end CommunityGraph
