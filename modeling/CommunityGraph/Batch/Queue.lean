import CommunityGraph.Batch
import CommunityGraph.Run
import CommunityGraph.Workers

/-! A queue of batches and the workers that empty it. Workers take turns: the first works until the
queue is empty or something stops it, and the others find what it left. -/
namespace CommunityGraph

inductive BatchSource where
  | consecutive (total size : Nat)
  | partitions (batches : List Batch)
  deriving DecidableEq, Repr

namespace BatchSource

def count : BatchSource → Nat
  | consecutive total size => ceilDiv total size
  | partitions batches => batches.length

def batch? : BatchSource → Nat → Option Batch
  | consecutive total size, index =>
      let start := index * size
      if start < total then some ⟨start, min size (total - start)⟩ else none
  | partitions batches, index => batches[index]?

end BatchSource

structure BatchQueue where
  source : BatchSource
  claimed : Nat
  deriving DecidableEq, Repr

namespace BatchQueue

def ofSize (total size : Nat) : BatchQueue :=
  ⟨.consecutive total (min (max size 1) Batch.maxSize), 0⟩

def consecutive (total : Nat) : BatchQueue := ofSize total Batch.defaultSize

def consecutiveWith (total least concurrency : Nat) : BatchQueue :=
  ofSize total (Batch.sizeFor total least concurrency)

def ofPartitions (batches : List Batch) : BatchQueue := ⟨.partitions batches, 0⟩

def count (q : BatchQueue) : Nat := q.source.count

def pop (q : BatchQueue) : Option Batch × BatchQueue :=
  (q.source.batch? q.claimed, { q with claimed := q.claimed + 1 })

def drainFrom (source : BatchSource) : Nat → Nat → List Batch
  | 0, _ => []
  | left + 1, index =>
      match source.batch? index with
      | none => []
      | some batch => batch :: drainFrom source left (index + 1)

def drain (q : BatchQueue) : List Batch := drainFrom q.source (q.count - q.claimed) q.claimed

abbrev Action (σ : Type) := Batch → σ → Watched (Except EngineError Unit × σ)

/-- One worker: before every batch it checks the flag, also before the one it does not find. -/
def work {σ : Type} (source : BatchSource) (action : Action σ) :
    Nat → Nat → σ → Watched (Except EngineError Unit × σ)
  | left, index, state => fun t j =>
      match Watched.check t j with
      | (false, j) => ((.error .terminated, state), j)
      | (true, j) =>
          match left with
          | 0 => ((.ok (), state), j)
          | left + 1 =>
              match source.batch? index with
              | none => ((.ok (), state), j)
              | some batch =>
                  match action batch state t j with
                  | ((.error e, state), j) => ((.error e, state), j)
                  | ((.ok (), state), j) => work source action left (index + 1) state t j

def idle : Nat → Watched (Except EngineError Unit)
  | 0 => fun _ j => (.ok (), j)
  | workers + 1 => fun t j =>
      match Watched.check t j with
      | (false, j) => (.error .terminated, j)
      | (true, j) => idle workers t j

/-- Empties the queue with `max concurrency 1` workers. The first failure ends all work. The state
is answered also after a failure. -/
def consume {σ : Type} (q : BatchQueue) (concurrency : Nat) (action : Action σ) (state : σ) :
    Watched (Except EngineError Unit × σ) := fun t j =>
  match work q.source action (q.count - q.claimed) q.claimed state t j with
  | ((.error e, state), j) => ((.error e, state), j)
  | ((.ok (), state), j) =>
      match idle (max concurrency 1 - 1) t j with
      | (outcome, j) => ((outcome, state), j)

def consumeAlone {σ : Type} (q : BatchQueue) (concurrency : Nat) (action : Action σ) (state : σ) :
    Watched (Except EngineError Unit × σ) := fun t j =>
  match WorkerPool.make concurrency with
  | .error e => ((.error e, state), j)
  | .ok pool => q.consume pool.size action state t j

def consumeAll {σ : Type} (q : BatchQueue) (concurrency : Nat) (action : Action σ) (state : σ) :
    Run σ := fun t j =>
  match q.consume concurrency action state t j with
  | ((.error e, _), j) => (.error e, j)
  | ((.ok (), state), j) => (.ok state, j)

end BatchQueue
end CommunityGraph
