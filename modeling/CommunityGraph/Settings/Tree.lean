import CommunityGraph.Settings.Node

/-! A document as it is written: anchors give numbers to values, and references use the numbers. Of
several values with one number the last one counts, also for references before it. -/
namespace CommunityGraph.Settings

inductive Tree where
  | scalar (s : Scalar)
  | list (tag : Option String) (items : List Tree)
  | mapping (tag : Option String) (entries : List (Tree × Tree))
  | anchored (id : Nat) (tree : Tree)
  | reference (id : Nat)
  deriving Repr

namespace Tree

def empty : Tree := .scalar .empty

mutual

def size : Tree → Nat
  | .scalar _ | .reference _ => 1
  | .list _ items => sizeAll items + 2
  | .mapping _ entries => sizeEntries entries + 2
  | .anchored _ tree => tree.size

def sizeAll : List Tree → Nat
  | [] => 0
  | item :: items => item.size + sizeAll items

def sizeEntries : List (Tree × Tree) → Nat
  | [] => 0
  | (key, value) :: entries => key.size + value.size + sizeEntries entries

end

mutual

def anchors : Tree → List (Nat × Tree)
  | .scalar _ | .reference _ => []
  | .list _ items => anchorsAll items
  | .mapping _ entries => anchorsEntries entries
  | .anchored id tree => (id, tree) :: tree.anchors

def anchorsAll : List Tree → List (Nat × Tree)
  | [] => []
  | item :: items => item.anchors ++ anchorsAll items

def anchorsEntries : List (Tree × Tree) → List (Nat × Tree)
  | [] => []
  | (key, value) :: entries => key.anchors ++ value.anchors ++ anchorsEntries entries

end

abbrev Places := List (Nat × Node)

mutual

def link (places : Places) : Tree → Node
  | .scalar s => .scalar s
  | .list tag items => .list tag (linkAll places items)
  | .mapping tag entries => .mapping tag (linkEntries places entries)
  | .anchored _ tree => tree.link places
  | .reference id =>
      match places.lookup id with
      | none => .endless
      | some node => .shared (1 + node.follows) node

def linkAll (places : Places) : List Tree → List Node
  | [] => []
  | item :: items => item.link places :: linkAll places items

def linkEntries (places : Places) : List (Tree × Tree) → List (Node × Node)
  | [] => []
  | (key, value) :: entries =>
      (key.link places, value.link places) :: linkEntries places entries

end

/-- The anchored values as nodes, after some rounds. A value that holds references no deeper than
the number of rounds is complete. -/
def placesAfter (anchors : List (Nat × Tree)) : Nat → Places
  | 0 => []
  | rounds + 1 =>
      let places := placesAfter anchors rounds
      anchors.map fun (id, tree) => (id, tree.link places)

/-- The node that a document describes. As many rounds as there are anchors are enough: deeper
references go round in a circle. -/
def node (tree : Tree) : Node :=
  let anchors := tree.anchors.reverse
  tree.link (placesAfter anchors anchors.length)

end Tree
end CommunityGraph.Settings
