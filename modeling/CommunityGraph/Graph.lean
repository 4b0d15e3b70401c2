import CommunityGraph.Builder

/-! Graphs over internal ids `0 .. nodeCount`, the queries on them, and their rows: for every node
its targets with weights, in ascending order. -/
namespace CommunityGraph

structure Network (α : Type) where
  rows : Array (List (Nat × α))
  deriving Repr

namespace Network
variable {α : Type}

def nodeCount (n : Network α) : Nat := n.rows.size

def row (n : Network α) (node : Nat) : List (Nat × α) := n.rows.getD node []

def targets (n : Network α) (node : Nat) : List Nat := (n.row node).map Prod.fst

def degree (n : Network α) (node : Nat) : Nat := (n.row node).length

def weightedDegree [Weight α] (n : Network α) (node : Nat) : α :=
  Weight.accumulate ((n.row node).map Prod.snd)

def weightedDegrees [Weight α] (n : Network α) : Array α :=
  n.rows.map fun row => Weight.accumulate (row.map Prod.snd)

end Network

structure Graph (α : Type) where
  relationships : Relationships α
  externalIds : Option IdTable

namespace Graph
variable {α : Type}

def adjacency (g : Graph α) : AdjacencyList := g.relationships.topology.adjacency

def nodeCount (g : Graph α) : Nat := g.adjacency.nodeCount

def relationshipCount (g : Graph α) : Nat := g.adjacency.relationshipCount

def orientation (g : Graph α) : Orientation := g.relationships.topology.orientation

def weights (g : Graph α) : Option (RelationshipProperty α) :=
  (g.relationships.property weightKey).toOption

def isWeighted (g : Graph α) : Bool := g.weights.isSome

def degree? (g : Graph α) (node : Nat) : Option Nat := g.adjacency.degree? node

def neighbours? (g : Graph α) (node : Nat) : Option (List Nat) :=
  g.adjacency.targets? node

def neighbours (g : Graph α) (node : Nat) : List Nat := g.adjacency.targets node

def externalId (g : Graph α) (node : Nat) : Int :=
  ((g.externalIds.bind fun ids => ids.external? node)).getD ((node : Int).bmod UInt64.size)

def hasVertex (g : Graph α) (node : Nat) : Bool := node < g.nodeCount

def neighboursOrEmpty (g : Graph α) (node : Nat) : List Nat :=
  if g.hasVertex node then g.neighbours node else []

def hasEdge (g : Graph α) (source target : Nat) : Bool :=
  g.hasVertex source && g.hasVertex target &&
    ((g.neighbours source).takeWhile fun t => t ≤ target).any fun t => t = target

def vertexList (g : Graph α) : List Nat := List.range g.nodeCount

def adjacencies (g : Graph α) : List (Nat × List Nat) :=
  g.vertexList.map fun node => (node, g.neighboursOrEmpty node)

variable [Weight α]

def row? (g : Graph α) (node : Nat) : Option (List (Nat × α)) :=
  match g.neighbours? node with
  | none => none
  | some targets =>
      match g.weights with
      | none => some (targets.map fun target => (target, Weight.one))
      | some weights => (weights.values? node).map fun values => targets.zip values

def row (g : Graph α) (node : Nat) : List (Nat × α) := (g.row? node).getD []

def weightedDegree? (g : Graph α) (node : Nat) : Option α :=
  (g.row? node).map fun row => Weight.accumulate (row.map Prod.snd)

def network (g : Graph α) : Network α := ⟨(g.vertexList.map g.row).toArray⟩

def addEdge (edge : Nat × Nat × α) (b : Builder α) :
    Except EngineError Unit × Builder α := b.addInternal edge.1 edge.2.1 [edge.2.2]

def ofEdges (nodeCount : Nat) (edges : List (Nat × Nat × α)) (orientation : Orientation)
    (concurrency : Nat) : Run (Graph α) := do
  let config : BuilderConfig α :=
    { (BuilderConfig.default : BuilderConfig α) with
      orientation := orientation
      properties := [.weight]
      concurrency := concurrency }
  let builder ← Run.ofExcept (Builder.make (.direct nodeCount) config)
  match Builder.addEach addEdge edges builder with
  | (.error e, _) => Run.fail e
  | (.ok (), builder) => do
      let relationships ← builder.build
      pure ⟨relationships, none⟩

end Graph
end CommunityGraph
