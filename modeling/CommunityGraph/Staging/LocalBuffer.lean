import CommunityGraph.Staging.AdjacencyBuffer
import CommunityGraph.Storage.Memory

/-! Relationships held back by one slot until there are enough of them. A flush sorts them by
source, equal sources in order of arrival, and hands them to the shared buffer. -/
namespace CommunityGraph

structure LocalBuffer (α : Type) where
  capacity : Nat
  propertyCount : Nat
  count : Nat
  held : List (StagedEntry α)
  deriving Repr

namespace LocalBuffer
variable {α : Type}

def make (capacity propertyCount : Nat) : LocalBuffer α := ⟨max capacity 1, propertyCount, 0, []⟩

def canHold (capacity propertyCount : Nat) : Bool :=
  Memory.canAsk capacity 8 && Memory.canAsk (capacity * propertyCount) 8

def blocks (capacity propertyCount : Nat) : List Nat :=
  [capacity * 8, capacity * 8, capacity * propertyCount * 8]

def isEmpty (l : LocalBuffer α) : Bool := l.count = 0

def cleared (l : LocalBuffer α) : LocalBuffer α := { l with count := 0, held := [] }

def sorted (l : LocalBuffer α) : List (StagedEntry α) :=
  l.held.reverse.mergeSort fun a b => a.source ≤ b.source

def flush (l : LocalBuffer α) (b : AdjacencyBuffer α) : LocalBuffer α × AdjacencyBuffer α :=
  (l.cleared, b.addAll l.sorted)

def push (l : LocalBuffer α) (entry : StagedEntry α) : LocalBuffer α :=
  { l with
    count := l.count + 1
    held := { entry with values := entry.values.take l.propertyCount } :: l.held }

def add (l : LocalBuffer α) (entry : StagedEntry α) (b : AdjacencyBuffer α) :
    LocalBuffer α × AdjacencyBuffer α :=
  let l := l.push entry
  if l.capacity ≤ l.count then l.flush b else (l, b)

def flush? (l : LocalBuffer α) (b : AdjacencyBuffer α) :
    Option (LocalBuffer α × AdjacencyBuffer α) :=
  (b.addAll? l.sorted).map fun b => (l.cleared, b)

def add? (l : LocalBuffer α) (entry : StagedEntry α) (b : AdjacencyBuffer α) :
    Option (LocalBuffer α × AdjacencyBuffer α) :=
  if entry.values.length < l.propertyCount then none
  else
    let l := l.push entry
    if l.capacity ≤ l.count then l.flush? b else some (l, b)

end LocalBuffer
end CommunityGraph
