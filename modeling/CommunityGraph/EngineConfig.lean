import CommunityGraph.Builder.Config

/-! Settings of the whole engine. -/
namespace CommunityGraph

structure EngineConfig where
  concurrency : Nat
  minBatchSize : Nat
  localBufferSize : Nat
  showProgress : Bool
  deriving DecidableEq, Repr

namespace EngineConfig

def default : EngineConfig := ⟨defaultConcurrency, 1, defaultBufferSize, false⟩

def validate (c : EngineConfig) : Except EngineError EngineConfig := do
  requirePositive "concurrency" c.concurrency
  requirePositive "min_batch_size" c.minBatchSize
  requirePositive "local_buffer_size" c.localBufferSize
  .ok c

end EngineConfig
end CommunityGraph
