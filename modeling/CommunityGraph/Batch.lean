import CommunityGraph.Arithmetic

/-! Work cut into batches of consecutive elements: of equal size, or of similar volume. -/
namespace CommunityGraph

structure Batch where
  start : Nat
  size : Nat
  deriving DecidableEq, Repr

namespace Batch

def stop (b : Batch) : Nat := b.start + b.size

def isEmpty (b : Batch) : Bool := b.size = 0

def elements (b : Batch) : List Nat := List.range' b.start b.size

def defaultSize : Nat := 100

def maxSize : Nat := 2147483647

def sizeFor (total least concurrency : Nat) : Nat :=
  min (max (max (ceilDiv total (max concurrency 1)) least) 1) maxSize

def rangesFrom (total size : Nat) : Nat → Nat → List Batch
  | 0, _ => []
  | count + 1, start =>
      if start < total then
        ⟨start, min size (total - start)⟩ :: rangesFrom total size count (start + size)
      else []

def rangePartition (concurrency nodeCount least : Nat) : List Batch :=
  let size := sizeFor nodeCount least concurrency
  rangesFrom nodeCount size (ceilDiv nodeCount size) 0

def degreeRanges (degree : Nat → UInt64) (target : Nat) : Nat → Nat → Nat → UInt64 → List Batch
  | 0, node, start, _ => if start < node then [⟨start, node - start⟩] else []
  | left + 1, node, start, volume =>
      let volume := volume + degree node
      if target ≤ volume.toNat then
        ⟨start, node + 1 - start⟩ :: degreeRanges degree target left (node + 1) (node + 1) 0
      else degreeRanges degree target left (node + 1) start volume

def degreePartition (nodeCount relationshipCount : Nat) (degree : Nat → UInt64)
    (concurrency least : Nat) : List Batch :=
  degreeRanges degree (sizeFor relationshipCount least concurrency) nodeCount 0 0 0

end Batch
end CommunityGraph
