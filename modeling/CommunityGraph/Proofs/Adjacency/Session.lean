import CommunityGraph.Proofs.Adjacency.Compression

/-! Calls of several writers of one store, in any order. What a call was answered for is read back
from the finished lists, whatever was called before and after it. -/
namespace CommunityGraph
variable {α : Type}

structure CompressCall (α : Type) where
  writer : Nat
  node : Nat
  targets : List UInt64
  columns : List (List α)
  mapper : Option (UInt64 → UInt64)

structure CompressSession (α : Type) where
  store : AdjacencyStore α
  writers : Nat → AdjacencyWriter

namespace CompressCall

def mapped (call : CompressCall α) : List UInt64 :=
  AdjacencyStore.mappedTargets call.mapper call.targets

def Accepted (nodeCount : Nat) (layout : PropertyLayout) (call : CompressCall α) : Prop :=
  AdjacencyStore.Accepts nodeCount layout call.node call.targets call.columns

def rows [Weight α] (layout : PropertyLayout) (call : CompressCall α) : List (Row α) :=
  AdjacencyStore.arrangedRows layout call.mapper call.targets call.columns

end CompressCall

namespace CompressSession

abbrev Answers (α : Type) := List (CompressCall α × Except EngineError (AdjacencyStore.Arranged α))

def succeeded? : CompressCall α × Except EngineError (AdjacencyStore.Arranged α) →
    Option (CompressCall α)
  | (call, .ok _) => some call
  | (_, .error _) => none

def succeeded (answers : Answers α) : List (CompressCall α) := answers.filterMap succeeded?

def spoiled? : CompressCall α × Except EngineError (AdjacencyStore.Arranged α) → Option Nat
  | (call, .error (.allocationFailed _)) => some call.node
  | _ => none

def spoiled (answers : Answers α) : List Nat := answers.filterMap spoiled?

theorem succeededSnoc (history : Answers α) (call : CompressCall α)
    (outcome : Except EngineError (AdjacencyStore.Arranged α)) :
    succeeded (history ++ [(call, outcome)]) =
      succeeded history ++ (succeeded? (call, outcome)).toList := by
  cases h : succeeded? (call, outcome) <;> simp [succeeded, h]

theorem spoiledSnoc (history : Answers α) (call : CompressCall α)
    (outcome : Except EngineError (AdjacencyStore.Arranged α)) :
    spoiled (history ++ [(call, outcome)]) =
      spoiled history ++ (spoiled? (call, outcome)).toList := by
  cases h : spoiled? (call, outcome) <;> simp [spoiled, h]

theorem refusedKeeps {nodeCount : Nat} {layout : PropertyLayout} {call : CompressCall α}
    {e : EngineError}
    (found : AdjacencyStore.fault? nodeCount layout call.node call.targets call.columns = some e) :
    spoiled? (call, .error e) = none := by
  rcases AdjacencyStore.faultKind found with ⟨_, rfl⟩ | ⟨_, key, expected, actual, rfl⟩ <;> rfl

section Serving
variable [Weight α]

def opened (nodeCount : Nat) (layout : PropertyLayout) : CompressSession α :=
  ⟨.make nodeCount layout, fun _ => .empty⟩

def serve (session : CompressSession α) (call : CompressCall α) :
    Except EngineError (AdjacencyStore.Arranged α) × CompressSession α :=
  match session.store.compress (session.writers call.writer) call.node call.targets call.columns
      call.mapper with
  | (outcome, store, writer) =>
      (outcome, ⟨store, Function.update session.writers call.writer writer⟩)

def serveAll : CompressSession α → List (CompressCall α) → Answers α × CompressSession α
  | session, [] => ([], session)
  | session, call :: calls =>
      match session.serve call with
      | (outcome, session) =>
          match serveAll session calls with
          | (answers, session) => ((call, outcome) :: answers, session)

structure Good (nodeCount : Nat) (layout : PropertyLayout) (history : Answers α)
    (session : CompressSession α) : Prop where
  sound : session.store.Sound
  nodes : session.store.nodeCount = nodeCount
  properties : session.store.layout = layout
  on : ∀ writer, (session.writers writer).On session.store
  accepted : ∀ call ∈ succeeded history, call.Accepted nodeCount layout
  stored : ∀ call ∈ succeeded history, call.node ∉ spoiled history →
    session.store.Stored call.node (call.rows layout)
  others : ∀ node < nodeCount, node ∉ (succeeded history).map CompressCall.node →
    node ∉ spoiled history → session.store.Stored node []
  balanced : spoiled history = [] → session.store.Balanced

section OneCall
variable {nodeCount : Nat} {layout : PropertyLayout} {history : Answers α}
  {session after : CompressSession α} {call : CompressCall α}

theorem Good.refused (good : Good nodeCount layout history session) {e : EngineError}
    (found : AdjacencyStore.fault? nodeCount layout call.node call.targets call.columns = some e) :
    Good nodeCount layout (history ++ [(call, .error e)]) session := by
  have same : succeeded (history ++ [(call, .error e)]) = succeeded history := by
    simp [succeededSnoc, succeeded?]
  have kept : spoiled (history ++ [(call, .error e)]) = spoiled history := by
    simp [spoiledSnoc, refusedKeeps found]
  refine ⟨good.sound, good.nodes, good.properties, good.on, ?_, ?_, ?_, ?_⟩ <;>
    simp only [same, kept]
  · exact good.accepted
  · exact good.stored
  · exact good.others
  · exact good.balanced

theorem Good.served (good : Good nodeCount layout history session)
    {arranged : AdjacencyStore.Arranged α} (accepts : call.Accepted nodeCount layout)
    (first : call.node ∉ (succeeded history).map CompressCall.node) (sound : after.store.Sound)
    (frame : AdjacencyStore.Frame call.node session.store after.store)
    (on : ∀ writer, (after.writers writer).On after.store)
    (rows : after.store.Stored call.node (call.rows layout))
    (total : after.store.relationshipCount =
      session.store.relationshipCount + (call.rows layout).length) :
    Good nodeCount layout (history ++ [(call, .ok arranged)]) after := by
  have more : succeeded (history ++ [(call, .ok arranged)]) = succeeded history ++ [call] :=
    succeededSnoc history call _
  have kept : spoiled (history ++ [(call, .ok arranged)]) = spoiled history := by
    simp [spoiledSnoc, spoiled?]
  refine ⟨sound, frame.nodeCount.trans good.nodes, frame.layout.trans good.properties, on,
    ?_, ?_, ?_, ?_⟩ <;> simp only [more, kept]
  · intro other member
    rcases List.mem_append.mp member with earlier | last
    · exact good.accepted other earlier
    · obtain rfl := List.mem_singleton.mp last
      exact accepts
  · intro other member whole
    rcases List.mem_append.mp member with earlier | last
    · -- the earlier calls were for other nodes, which the frame leaves alone
      have apart : other.node ≠ call.node := fun same =>
        first (same ▸ List.mem_map_of_mem earlier)
      exact (good.stored other earlier whole).later frame apart
    · obtain rfl := List.mem_singleton.mp last
      exact rows
  · intro node inside fresh whole
    simp only [List.map_append, List.mem_append, List.map_cons, List.map_nil,
      List.mem_singleton, not_or] at fresh
    exact (good.others node inside fresh.1 whole).later frame fresh.2
  · intro none
    have changed : AdjacencyStore.Changed call.node session.store after.store
        (after.writers call.writer) := ⟨sound, frame, on _⟩
    have inside : call.node < nodeCount := accepts.1
    have empty := good.others call.node inside first (by simp [none])
    exact changed.balanced (good.nodes.symm ▸ inside) (good.balanced none) empty rows total

theorem Good.exhausted (good : Good nodeCount layout history session) {bytes : Nat}
    (sound : after.store.Sound)
    (frame : AdjacencyStore.Frame call.node session.store after.store)
    (on : ∀ writer, (after.writers writer).On after.store) :
    Good nodeCount layout (history ++ [(call, .error (.allocationFailed bytes))]) after := by
  have same : succeeded (history ++ [(call, .error (.allocationFailed bytes))]) =
      succeeded history := by simp [succeededSnoc, succeeded?]
  have more : spoiled (history ++ [(call, .error (.allocationFailed bytes))]) =
      spoiled history ++ [call.node] := spoiledSnoc history call _
  refine ⟨sound, frame.nodeCount.trans good.nodes, frame.layout.trans good.properties, on,
    ?_, ?_, ?_, ?_⟩ <;> simp only [same, more]
  · exact good.accepted
  · intro other member whole
    simp only [List.mem_append, List.mem_singleton, not_or] at whole
    exact (good.stored other member whole.1).later frame whole.2
  · intro node inside fresh whole
    simp only [List.mem_append, List.mem_singleton, not_or] at whole
    exact (good.others node inside fresh whole.1).later frame whole.2
  · simp

end OneCall

end Serving
end CompressSession
end CommunityGraph
