import CommunityGraph.DisjointSet
import CommunityGraph.Louvain.LocalMoving
import CommunityGraph.Modularity

/-! The community search. Each level moves nodes between communities, merges the communities in a
disjoint-set structure over the input nodes, and collapses them into the nodes of the next level. -/
namespace CommunityGraph.Louvain
variable {α : Type} [Weight α]

def addTo (rename : Nat → Nat) (source : Nat) (entry : Nat × α) (b : Builder α) :
    Except EngineError Unit × Builder α :=
  b.addInternal source (rename entry.1) [entry.2]

def addRows (network : Network α) (rename : Nat → Nat) (counted : Bool) :
    List Nat → Builder α → Journal →
      (Except EngineError Unit × Builder α) × Journal
  | [], b, j => ((.ok (), b), j)
  | node :: nodes, b, j =>
      match b.addEach (addTo rename (rename node)) (network.row node) with
      | (outcome, b) =>
          let j := if counted then j.note (.progress (network.degree node)) else j
          match outcome with
          | .error e => ((.error e, b), j)
          | .ok () => addRows network rename counted nodes b j

def rebuild (network : Network α) (rename : Nat → Nat) (counted : Bool) (c : LouvainConfig α)
    (builder : Builder α) : Run (Graph α) := do
  let queue := BatchQueue.consecutiveWith network.nodeCount c.minBatchSize c.concurrency
  let action : BatchQueue.Action (Builder α) := fun batch b _ j =>
    addRows network rename counted batch.elements b j
  let builder ← queue.consumeAll c.concurrency action builder
  let relationships ← builder.build
  pure ⟨relationships, none⟩

def summing (orientation : Orientation) (concurrency : Nat) : BuilderConfig α :=
  { (BuilderConfig.default : BuilderConfig α) with
    orientation := orientation
    aggregation := .sum
    properties := [.weight]
    concurrency := concurrency }

def symmetricCopy (graph : Graph α) (c : LouvainConfig α) : Run (Graph α) := do
  let builder ← Run.ofExcept
    (Builder.make (.direct graph.nodeCount) (summing .undirected c.concurrency))
  rebuild graph.network id false c builder

/-- The graph of communities: every relationship becomes one between the communities of its ends,
so weight inside a community becomes a self loop. -/
def collapse (network : Network α) (dense : Array Nat) (count : Nat) (c : LouvainConfig α) :
    Run (Graph α) := do
  let builder ← Run.ofExcept
    (Builder.make (.direct count) (summing .natural c.concurrency))
  let graph ← rebuild network (fun node => dense.getD node 0) true c builder
  Run.log .debug "aggregated level graph"
    [("nodes", toString graph.nodeCount), ("relationships", toString graph.relationshipCount)]
  pure graph

structure Level (α : Type) where
  network : Network α
  relationshipCount : Nat
  degrees : Array α
  representatives : Array Nat

structure Findings (α : Type) where
  sets : DisjointSet
  previous : α
  modularities : List α
  ranLevels : Nat
  snapshots : List (List Nat)

def transition (before after : SearchState) : Run Unit := Run.note (.transition before after)

def Level.ofGraph (graph : Graph α) (representatives : Array Nat) : Level α :=
  let network := graph.network
  ⟨network, graph.relationshipCount, network.weightedDegrees, representatives⟩

def firstLevel (graph : Graph α) (c : LouvainConfig α) : Run (Level α × α × α) := do
  let symmetric ←
    if graph.orientation = .undirected then pure graph else symmetricCopy graph c
  let singletons := Array.range graph.nodeCount
  let level := Level.ofGraph symmetric singletons
  let total := Weight.sum level.degrees.toList
  let modularity := Modularity.modularity level.network singletons level.degrees total
  Run.note (.progress graph.nodeCount)
  pure (level, total, modularity)

def anchorsFrom (representatives : Array Nat) : Nat → List Nat → Array (Option Nat) →
    Array (Option Nat)
  | _, [], anchors => anchors
  | node, community :: rest, anchors =>
      anchorsFrom representatives (node + 1) rest
        (anchors.modify community fun anchor =>
          match anchor with
          | none => some (representatives.getD node 0)
          | some a => some a)

def anchors (representatives : Array Nat) (dense : List Nat) (count : Nat) : Array Nat :=
  (anchorsFrom representatives 0 dense (Array.replicate count none)).map fun anchor =>
    anchor.getD 0

def merge (representatives : Array Nat) (anchors : Array Nat) (dense : List Nat)
    (sets : DisjointSet) : DisjointSet :=
  (sets.unions (representatives.toList.zip (dense.map fun c => anchors.getD c 0))).2

def present (c : LouvainConfig α) (sets : DisjointSet) : List Nat × DisjointSet :=
  if c.consecutiveIds then sets.consecutiveIds else sets.communities

inductive Verdict (α : Type) where
  | unchanged
  | lowered
  | applied (current gain : α) (dense : List Nat) (count : Nat)

def judge (level : Level α) (total previous : α) (communities : List Nat) : Verdict α :=
  let dense := renumber communities
  let count := labelBound dense
  if count = level.network.nodeCount then .unchanged
  else
    let current := Modularity.modularity level.network communities.toArray level.degrees total
    let gain := current - previous
    if Weight.lt gain Weight.zero then .lowered else .applied current gain dense count

def apply (c : LouvainConfig α) (number : Nat) (level : Level α) (anchors : Array Nat)
    (dense : List Nat) (current : α) (f : Findings α) : Findings α :=
  let sets := merge level.representatives anchors dense f.sets
  if c.includeIntermediate then
    match present c sets with
    | (snapshot, sets) =>
        ⟨sets, current, f.modularities ++ [current], number, f.snapshots ++ [snapshot]⟩
  else ⟨sets, current, f.modularities ++ [current], number, f.snapshots⟩

def levels (c : LouvainConfig α) (total : α) :
    Nat → Nat → SearchState → Level α → Findings α → Run (Bool × Findings α)
  | left, number, before, level, f => do
      let here := SearchState.localMoving number
      transition before here
      Run.assertRunning
      let communities ← Run.phase "Local moving" level.network.nodeCount
        (LocalMoving.run ⟨level.network, level.degrees, total, c.concurrency, c.minBatchSize⟩
          c.coloring c.maxLocalIterations)
      match judge level total f.previous communities with
      | .unchanged => do
          Run.log .debug "no node changed its community" [("level", toString number)]
          transition here .converged
          pure (true, f)
      | .lowered => do
          Run.log .debug "discarding level that lowers the modularity"
            [("level", toString number)]
          transition here .converged
          pure (true, f)
      | .applied current gain dense count => do
          let stands := anchors level.representatives dense count
          let f := apply c number level stands dense current f
          Run.log .debug "level finished"
            [("level", toString number), ("communities", toString count)]
          if Weight.lt gain c.tolerance then do
            transition here .converged
            pure (true, f)
          else
            match left with
            | 0 => do
                transition here .maxIterationsReached
                pure (false, f)
            | left + 1 => do
                let next ← Run.phase "Aggregation" level.relationshipCount
                  (collapse level.network dense.toArray count c)
                levels c total left (number + 1) here (.ofGraph next stands) f

def compute (graph : Graph α) (c : LouvainConfig α) : Run (LouvainResult α) := do
  Run.assertRunning
  let (level, total, modularity) ← Run.phase "Initialization" graph.nodeCount (firstLevel graph c)
  let start : Findings α := ⟨.make graph.nodeCount, modularity, [], 0, []⟩
  let (converged, f) ← levels c total (c.maxIterations - 1) 1 .initialized level start
  Run.log .info "louvain finished" []
  pure {
    communities := (present c f.sets).1
    modularities := f.modularities
    modularity := f.previous
    ranLevels := f.ranLevels
    didConverge := converged
    intermediate := if c.includeIntermediate then some f.snapshots else none }

end CommunityGraph.Louvain
