import CommunityGraph.Coloring

/-! Settings of a community search and what is checked about them. -/
namespace CommunityGraph

structure LouvainConfig (α : Type) where
  tolerance : α
  maxIterations : Nat
  maxLocalIterations : Nat
  concurrency : Nat
  minBatchSize : Nat
  consecutiveIds : Bool
  includeIntermediate : Bool
  coloring : Coloring
  deriving DecidableEq, Repr

namespace LouvainConfig
variable {α : Type}

def withTolerance (tolerance : α) : LouvainConfig α :=
  ⟨tolerance, 10, 10, defaultConcurrency, 1, false, false, .greedy⟩

def withConcurrency (c : LouvainConfig α) (concurrency : Nat) : LouvainConfig α :=
  { c with concurrency := concurrency }

def validate [Weight α] (c : LouvainConfig α) : Except EngineError Unit := do
  if !Weight.le Weight.zero c.tolerance then
    .error (.invalidConfiguration "tolerance"
      ("must be a non-negative number, got " ++ Weight.text c.tolerance))
  requirePositive "max_iterations" c.maxIterations
  requirePositive "max_local_iterations" c.maxLocalIterations
  requirePositive "concurrency" c.concurrency
  requirePositive "min_batch_size" c.minBatchSize

end LouvainConfig

structure LouvainResult (α : Type) where
  communities : List Nat
  modularities : List α
  modularity : α
  ranLevels : Nat
  didConverge : Bool
  intermediate : Option (List (List Nat))
  deriving DecidableEq, Repr

namespace LouvainResult
variable {α : Type}

def communityCount (r : LouvainResult α) : Nat := labelBound (renumber r.communities)

def communityOf? (r : LouvainResult α) (node : Nat) : Option Nat := r.communities[node]?

end LouvainResult
end CommunityGraph
