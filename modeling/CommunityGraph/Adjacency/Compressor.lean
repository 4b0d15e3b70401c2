import CommunityGraph.Adjacency.List
import CommunityGraph.Adjacency.Row

/-! Compressing the lists of a graph, node by node, into shared pages. Several writers may fill
pages of the same store; each has an allocator for targets and one for values. -/
namespace CommunityGraph

structure AdjacencyStore (α : Type) where
  nodeCount : Nat
  layout : PropertyLayout
  targets : Arena UInt8
  values : Arena α
  degrees : Array Nat
  addresses : Array Address
  valueAddresses : Array Address
  relationshipCount : Nat

structure AdjacencyWriter where
  targets : Allocator
  values : Allocator
  deriving DecidableEq, Repr

structure CompressedAdjacency (α : Type) where
  list : AdjacencyList
  properties : Option (PropertyStorage α)

def AdjacencyWriter.empty : AdjacencyWriter := ⟨.empty, .empty⟩

namespace AdjacencyStore
variable {α : Type}

def targetPageSize : Nat := 262144

def valuePageSize : Nat := 16384

def make (nodeCount : Nat) (layout : PropertyLayout) : AdjacencyStore α where
  nodeCount := nodeCount
  layout := layout
  targets := .make targetPageSize 1
  values := .make valuePageSize 8
  degrees := Array.replicate nodeCount 0
  addresses := Array.replicate nodeCount ⟨0, 0⟩
  valueAddresses := Array.replicate nodeCount ⟨0, 0⟩
  relationshipCount := 0

def unevenColumn? (expected : Nat) : List String → List (List α) → Option EngineError
  | key :: keys, column :: columns =>
      if column.length ≠ expected then
        some (.dimensionMismatch key expected column.length)
      else unevenColumn? expected keys columns
  | _, _ => none

def fault? (nodeCount : Nat) (layout : PropertyLayout) (node : Nat) (targets : List UInt64)
    (columns : List (List α)) : Option EngineError :=
  if nodeCount ≤ node then some (.nodeOutOfRange node nodeCount)
  else if columns.length ≠ layout.propertyCount then
    some (.dimensionMismatch (layout.blamedKey columns.length) layout.propertyCount
      columns.length)
  else unevenColumn? targets.length layout.keys columns

structure Arranged (α : Type) where
  targets : List UInt64
  columns : List (List α)

variable [Weight α]

def put (store : AdjacencyStore α) (writer : AdjacencyWriter) (node : Nat)
    (targets : List UInt64) (columns : List (List α)) :
    Except EngineError Unit × AdjacencyStore α × AdjacencyWriter :=
  match store, writer with
  | ⟨nodeCount, layout, targetArena, valueArena, degrees, addresses, valueAddresses, total⟩,
    ⟨targetAllocator, valueAllocator⟩ =>
      let packed := Packing.pack (Row.differences 0 targets)
      match targetArena.allocate targetAllocator packed.length 0 with
      | (.error e, targetAllocator, targetArena) =>
          (.error e, ⟨nodeCount, layout, targetArena, valueArena, degrees, addresses,
            valueAddresses, total⟩, ⟨targetAllocator, valueAllocator⟩)
      | (.ok address, targetAllocator, targetArena) =>
          let targetArena := targetArena.write address packed
          let degrees := degrees.setIfInBounds node targets.length
          let addresses := addresses.setIfInBounds node address
          let total := total + targets.length
          if columns.isEmpty then
            (.ok (), ⟨nodeCount, layout, targetArena, valueArena, degrees, addresses,
              valueAddresses, total⟩, ⟨targetAllocator, valueAllocator⟩)
          else
            match valueArena.allocate valueAllocator (targets.length * columns.length)
                Weight.zero with
            | (.error e, valueAllocator, valueArena) =>
                (.error e, ⟨nodeCount, layout, targetArena, valueArena, degrees, addresses,
                  valueAddresses, total⟩, ⟨targetAllocator, valueAllocator⟩)
            | (.ok valueAddress, valueAllocator, valueArena) =>
                let valueArena := valueArena.write valueAddress columns.flatten
                (.ok (), ⟨nodeCount, layout, targetArena, valueArena, degrees, addresses,
                  valueAddresses.setIfInBounds node valueAddress, total⟩,
                  ⟨targetAllocator, valueAllocator⟩)

def compress (store : AdjacencyStore α) (writer : AdjacencyWriter) (node : Nat)
    (targets : List UInt64) (columns : List (List α))
    (mapper : Option (UInt64 → UInt64)) :
    Except EngineError (Arranged α) × AdjacencyStore α × AdjacencyWriter :=
  match fault? store.nodeCount store.layout node targets columns with
  | some e => (.error e, store, writer)
  | none =>
      if targets.isEmpty then
        (.ok ⟨targets, columns⟩,
          { store with degrees := store.degrees.setIfInBounds node 0 }, writer)
      else
        let mapped := match mapper with
          | none => targets
          | some f => targets.map f
        let rows := Row.arrange store.layout (Row.ofColumns mapped columns)
        let targets := rows.map Row.target
        let columns := Row.columns columns.length rows
        match put store writer node targets columns with
        | (.error e, store, writer) => (.error e, store, writer)
        | (.ok (), store, writer) => (.ok ⟨targets, columns⟩, store, writer)

def build (store : AdjacencyStore α) : CompressedAdjacency α where
  list := ⟨store.degrees, store.addresses, store.targets.pages, store.relationshipCount⟩
  properties :=
    if 0 < store.layout.propertyCount then
      some ⟨store.degrees, store.valueAddresses, store.values.pages,
        store.layout.propertyCount⟩
    else none

end AdjacencyStore
end CommunityGraph
