import CommunityGraph.Adjacency.Compressor

/-! Built relationships: the lists of every node, the values of every property, and, if asked for,
the same seen from the targets. -/
namespace CommunityGraph

inductive Orientation where
  | natural
  | reverse
  | undirected
  deriving DecidableEq, Repr

namespace Orientation

def name : Orientation → String
  | natural => "NATURAL"
  | reverse => "REVERSE"
  | undirected => "UNDIRECTED"

def all : List Orientation := [natural, reverse, undirected]

def ofName? (text : String) : Option Orientation := all.find? fun o => o.name = text

end Orientation

structure Topology where
  adjacency : AdjacencyList
  orientation : Orientation
  isMultigraph : Bool

structure RelationshipProperty (α : Type) where
  key : String
  aggregation : Aggregation
  defaultValue : α
  storage : PropertyStorage α
  index : Nat

namespace RelationshipProperty
variable {α : Type}

def values? (p : RelationshipProperty α) (node : Nat) : Option (List α) :=
  p.storage.values? node p.index

def values (p : RelationshipProperty α) (node : Nat) : List α := p.storage.values node p.index

end RelationshipProperty

structure Relationships (α : Type) where
  topology : Topology
  properties : List (RelationshipProperty α)
  inverseTopology : Option Topology
  inverseProperties : List (RelationshipProperty α)

namespace Relationships
variable {α : Type}

def property (r : Relationships α) (key : String) :
    Except EngineError (RelationshipProperty α) :=
  match r.properties.find? fun p => p.key = key with
  | none => .error (.propertyNotFound key)
  | some p => .ok p

def inverseProperty (r : Relationships α) (key : String) :
    Except EngineError (RelationshipProperty α) :=
  match r.inverseProperties.find? fun p => p.key = key with
  | none => .error (.propertyNotFound key)
  | some p => .ok p

end Relationships
end CommunityGraph
