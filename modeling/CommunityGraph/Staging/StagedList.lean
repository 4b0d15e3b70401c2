import CommunityGraph.Codec.Varlong

/-! The relationships of one node while they arrive: targets as variable-length steps from the
target before, and the values of each property in a column. Taking them empties the list. -/
namespace CommunityGraph

structure StagedList (α : Type) where
  bytes : Array UInt8
  last : UInt64
  count : Nat
  columns : List (Array α)
  deriving Repr

namespace StagedList
variable {α : Type}

def empty (propertyCount : Nat) : StagedList α := ⟨#[], 0, 0, List.replicate propertyCount #[]⟩

def pushValues : List (Array α) → List α → List (Array α)
  | column :: columns, value :: values => column.push value :: pushValues columns values
  | columns, _ => columns

def add (list : StagedList α) (target : UInt64) (values : List α) : StagedList α :=
  match list with
  | ⟨bytes, last, count, columns⟩ =>
      ⟨bytes ++ Varlong.encodeDeltas last [target], target, count + 1,
        pushValues columns values⟩

def targets (list : StagedList α) : List UInt64 :=
  (Varlong.decodeDeltas 0 list.count list.bytes.toList).getD []

def values (list : StagedList α) : List (List α) := list.columns.map Array.toList

def cleared (list : StagedList α) : StagedList α := empty list.columns.length

end StagedList

structure StagedPage (α : Type) where
  lists : Array (StagedList α)
  deriving Repr

namespace StagedPage
variable {α : Type}

def make (nodeCount propertyCount : Nat) : StagedPage α :=
  ⟨Array.replicate nodeCount (.empty propertyCount)⟩

def blocks (nodeCount propertyCount : Nat) : List Nat :=
  [nodeCount * 24, nodeCount * 8, nodeCount * 8] ++
    List.replicate (max propertyCount 1) (nodeCount * 24)

def nodeCount (page : StagedPage α) : Nat := page.lists.size

def add (page : StagedPage α) (node : Nat) (target : UInt64) (values : List α) : StagedPage α :=
  ⟨page.lists.modify node fun list => list.add target values⟩

def add? (page : StagedPage α) (node : Nat) (target : UInt64) (values : List α) :
    Option (StagedPage α) :=
  if node < page.nodeCount then some (page.add node target values) else none

def count? (page : StagedPage α) (node : Nat) : Option Nat := page.lists[node]?.map StagedList.count

def take? (page : StagedPage α) (node : Nat) :
    Option ((List UInt64 × List (List α)) × StagedPage α) :=
  page.lists[node]?.map fun list =>
    ((list.targets, list.values), ⟨page.lists.setIfInBounds node list.cleared⟩)

end StagedPage
end CommunityGraph
