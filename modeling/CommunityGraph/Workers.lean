import CommunityGraph.Storage.Machine

/-! Pools of workers: how many there are and what they are called. -/
namespace CommunityGraph

structure WorkerPool where
  size : Nat
  deriving DecidableEq, Repr

namespace WorkerPool

def make (concurrency : Nat) (m : Machine := .ample) : Except EngineError WorkerPool := do
  requirePositive "concurrency" concurrency
  match m.refusal concurrency with
  | some reason => .error (.workersUnavailable reason)
  | none => .ok ⟨concurrency⟩

def workerName (index : Nat) : String := "quasar-worker-" ++ toString index

def names (p : WorkerPool) : List String := (List.range p.size).map workerName

end WorkerPool
end CommunityGraph
