import CommunityGraph.DisjointSet
import CommunityGraph.Graph

/-! Weakly connected components: the ends of every relationship are united, batch by batch, and the
sets are numbered by their first node. -/
namespace CommunityGraph

structure ComponentsConfig where
  threadCount : Nat
  minBatchSize : Nat
  deriving DecidableEq, Repr

namespace ComponentsConfig

def default : ComponentsConfig := ⟨defaultConcurrency, 1⟩

def validate (c : ComponentsConfig) : Except EngineError Unit := do
  requirePositive "thread_num" c.threadCount
  requirePositive "min_batch_size" c.minBatchSize

end ComponentsConfig

structure ComponentsResult where
  ids : List Nat
  count : Nat
  deriving DecidableEq, Repr

def ComponentsResult.components (r : ComponentsResult) : List (List Nat) := classify r.count r.ids

namespace Components
variable {α : Type}

def uniteBatch (network : Network α) : List Nat → DisjointSet → DisjointSet
  | [], sets => sets
  | node :: nodes, sets =>
      match sets.unions ((network.targets node).map fun target => (node, target)) with
      | (_, sets) => uniteBatch network nodes sets

def uniteAction (network : Network α) : BatchQueue.Action DisjointSet := fun batch sets _ j =>
  ((.ok (), uniteBatch network batch.elements sets), j.note (.progress batch.size))

def unite (network : Network α) (queue : BatchQueue) (threads : Nat) : Run DisjointSet :=
  queue.consumeAll threads (uniteAction network) (.make network.nodeCount)

def number (nodeCount : Nat) (sets : DisjointSet) : Run ComponentsResult := do
  let ids := renumber sets.communities.1
  Run.note (.progress nodeCount)
  pure ⟨ids, labelBound ids⟩

def queue (g : Graph α) (c : ComponentsConfig) : BatchQueue :=
  .ofPartitions (Batch.degreePartition g.nodeCount g.relationshipCount
    (fun node => .ofNat (g.adjacency.degree node)) c.threadCount c.minBatchSize)

def compute [Weight α] (g : Graph α) (c : ComponentsConfig) : Run ComponentsResult := do
  Run.ofExcept c.validate
  let sets ← Run.phase "Union" g.nodeCount (unite g.network (queue g c) c.threadCount)
  let result ← Run.phase "Components" g.nodeCount (number g.nodeCount sets)
  Run.log .info "wcc finished" []
  pure result

end Components
end CommunityGraph
