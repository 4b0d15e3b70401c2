import Mathlib
import CommunityGraph.Proofs.Adjacency.Session
import CommunityGraph.Proofs.Aggregation

/-! What compressed lists give back. Targets come back ascending, values come back beside their
targets, in order or merged from left to right, and all nodes are told apart, however the calls were
spread over writers. -/
namespace CommunityGraph

namespace CompressSession
variable {α : Type}

variable [Weight α]

structure Verdict (nodeCount : Nat) (layout : PropertyLayout) (session : CompressSession α)
    (call : CompressCall α) : Prop where
  outside : (session.serve call).1 = .error (.nodeOutOfRange call.node nodeCount) ↔
    nodeCount ≤ call.node
  mismatched : (∃ key expected actual,
      (session.serve call).1 = .error (.dimensionMismatch key expected actual)) ↔
    call.node < nodeCount ∧ ¬ call.Accepted nodeCount layout
  exhausted : ∀ bytes, (session.serve call).1 = .error (.allocationFailed bytes) →
    ¬ AdjacencyStore.Storable layout.propertyCount (call.rows layout)
  refused : ∀ e, (session.serve call).1 = .error e → (∀ bytes, e ≠ .allocationFailed bytes) →
    (session.serve call).2 = session

def sampleCalls : List (CompressCall Rat) :=
  [⟨0, 0, [5, 3, 5], [[1, 2, 3]], none⟩,
    ⟨1, 7, [], [[]], none⟩,
    ⟨1, 2, [9], [[]], none⟩,
    ⟨1, 2, [9, 18446744073709551615], [[4, 5]], some fun target => target + 1⟩]

end CompressSession
end CommunityGraph
