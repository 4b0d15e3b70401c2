import CommunityGraph.Error
import CommunityGraph.Storage.Memory

/-! What a run gets from the system that it runs on: memory, block by block, and pools of threads. Either
can be refused. -/
namespace CommunityGraph

structure Machine where
  /-- Whether a block of so many bytes can be had next to those in use. -/
  lends : Nat → Nat → Bool
  refusal : Nat → Option String

namespace Machine

def ample : Machine := ⟨fun _ _ => true, fun _ => none⟩

def reserve (m : Machine) (inUse : Nat) : List Nat → Except EngineError Nat
  | [] => .ok inUse
  | bytes :: blocks =>
      if Memory.maxRequest < bytes then .error .capacityOverflow
      else if bytes = 0 || m.lends inUse bytes then m.reserve (inUse + bytes) blocks
      else .error (.outOfMemory bytes)

end Machine
end CommunityGraph
