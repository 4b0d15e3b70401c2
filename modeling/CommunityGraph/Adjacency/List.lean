import CommunityGraph.Adjacency.Cursor
import CommunityGraph.Storage.Arena

/-! Finished adjacency lists: per node a degree and the address of its packed targets, and beside
them the property values, property after property. -/
namespace CommunityGraph

structure AdjacencyList where
  degrees : Array Nat
  addresses : Array Address
  pages : Array (Array UInt8)
  relationshipCount : Nat
  deriving Repr

namespace AdjacencyList

def nodeCount (a : AdjacencyList) : Nat := a.degrees.size

def degree? (a : AdjacencyList) (node : Nat) : Option Nat := a.degrees[node]?

def degree (a : AdjacencyList) (node : Nat) : Nat := a.degrees.getD node 0

def cursor? (a : AdjacencyList) (node : Nat) : Option Cursor :=
  match a.degrees[node]? with
  | none => none
  | some 0 => some .empty
  | some degree =>
      match a.addresses[node]? with
      | none => none
      | some address =>
          match a.pages[address.page]? with
          | none => none
          | some page =>
              if address.offset ≤ page.size then some (.make page address.offset degree) else none

def targets? (a : AdjacencyList) (node : Nat) : Option (List Nat) :=
  match a.cursor? node with
  | none => none
  | some c => c.toList?.map fun targets => targets.map UInt64.toNat

def targets (a : AdjacencyList) (node : Nat) : List Nat := (a.targets? node).getD []

def byteCount (a : AdjacencyList) : Nat := (a.pages.map Array.size).foldl (· + ·) 0

end AdjacencyList

structure PropertyStorage (α : Type) where
  degrees : Array Nat
  addresses : Array Address
  pages : Array (Array α)
  propertyCount : Nat
  deriving Repr

namespace PropertyStorage
variable {α : Type}

def values? (s : PropertyStorage α) (node property : Nat) : Option (List α) :=
  match s.degrees[node]? with
  | none => none
  | some 0 => some []
  | some degree =>
      match s.addresses[node]? with
      | none => none
      | some address =>
          Arena.slice? s.pages ⟨address.page, address.offset + property * degree⟩ degree

def values (s : PropertyStorage α) (node property : Nat) : List α :=
  (s.values? node property).getD []

end PropertyStorage
end CommunityGraph
