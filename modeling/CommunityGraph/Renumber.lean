import Std.Data.HashMap

/-! Labels renumbered by first appearance, and the classes of equal labels. -/
namespace CommunityGraph

def renumberFrom (seen : Std.HashMap Nat Nat) : List Nat → List Nat
  | [] => []
  | label :: labels =>
      match seen[label]? with
      | some number => number :: renumberFrom seen labels
      | none =>
          let number := seen.size
          number :: renumberFrom (seen.insert label number) labels

def renumber (labels : List Nat) : List Nat := renumberFrom ∅ labels

def labelBound (labels : List Nat) : Nat :=
  labels.foldl (fun bound label => max bound (label + 1)) 0

def classifyFrom (classes : Array (Array Nat)) : Nat → List Nat → Array (Array Nat)
  | _, [] => classes
  | position, label :: labels =>
      classifyFrom (classes.modify label fun members => members.push position) (position + 1) labels

def classify (count : Nat) (labels : List Nat) : List (List Nat) :=
  (classifyFrom (Array.replicate count #[]) 0 labels).toList.map Array.toList

end CommunityGraph
