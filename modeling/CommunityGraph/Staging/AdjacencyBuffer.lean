import CommunityGraph.Adjacency.Compressor
import CommunityGraph.Batch.Queue
import CommunityGraph.Staging.StagedList
import CommunityGraph.Storage.Memory

/-! Everything staged so far, in pages of 4096 nodes, and its compression page by page. -/
namespace CommunityGraph

structure StagedEntry (α : Type) where
  source : Nat
  target : UInt64
  values : List α
  deriving DecidableEq, Repr

structure AdjacencyBuffer (α : Type) where
  nodeCount : Nat
  propertyCount : Nat
  pages : Array (StagedPage α)
  deriving Repr

namespace AdjacencyBuffer
variable {α : Type}

def pageNodes : Nat := 4096

def make (nodeCount propertyCount : Nat) : AdjacencyBuffer α where
  nodeCount := nodeCount
  propertyCount := propertyCount
  pages := ((List.range (ceilDiv nodeCount pageNodes)).map fun page =>
    .make (min pageNodes (nodeCount - page * pageNodes)) propertyCount).toArray

/-- The memory for all pages, their table first. The pages of a word of nodes never make a table that is
longer than can be asked for. -/
def blocks (nodeCount propertyCount : Nat) : List Nat :=
  min (ceilDiv nodeCount pageNodes * 104) Memory.maxRequest ::
    (List.range (ceilDiv nodeCount pageNodes)).flatMap fun page =>
      StagedPage.blocks (min pageNodes (nodeCount - page * pageNodes)) propertyCount

def pageCount (b : AdjacencyBuffer α) : Nat := b.pages.size

def holds (b : AdjacencyBuffer α) (node : Nat) : Bool :=
  match b.pages[node / pageNodes]? with
  | none => false
  | some page => node % pageNodes < page.nodeCount

def add (b : AdjacencyBuffer α) (entry : StagedEntry α) : AdjacencyBuffer α :=
  match b with
  | ⟨nodeCount, propertyCount, pages⟩ =>
      ⟨nodeCount, propertyCount, pages.modify (entry.source / pageNodes) fun page =>
        page.add (entry.source % pageNodes) entry.target entry.values⟩

def addAll (b : AdjacencyBuffer α) (entries : List (StagedEntry α)) : AdjacencyBuffer α :=
  entries.foldl add b

def addAll? (b : AdjacencyBuffer α) (entries : List (StagedEntry α)) :
    Option (AdjacencyBuffer α) :=
  if entries.all fun entry => b.holds entry.source then some (b.addAll entries) else none

def pick? (width : Nat) (sources targets : Array UInt64) (values : Array α) (order : List Nat) :
    Option (List (StagedEntry α)) :=
  order.mapM fun index => do
    let source ← sources[index]?
    let target ← targets[index]?
    if (index + 1) * width ≤ values.size then
      some ⟨source.toNat, target, (values.extract (index * width) ((index + 1) * width)).toList⟩
    else none

def staged (b : AdjacencyBuffer α) (node : Nat) : List UInt64 × List (List α) :=
  match b.pages[node / pageNodes]?.bind fun page => page.lists[node % pageNodes]? with
  | none => ([], [])
  | some list => (list.targets, list.values)

variable [Weight α]

def compressLists (node : Nat) : List (StagedList α) → AdjacencyStore α → AdjacencyWriter →
    Except EngineError Unit × AdjacencyStore α
  | [], store, _ => (.ok (), store)
  | list :: lists, store, writer =>
      match store.compress writer node list.targets list.values none with
      | (.error e, store, _) => (.error e, store)
      | (.ok _, store, writer) => compressLists (node + 1) lists store writer

def compressPages (writer : AdjacencyWriter) :
    List Nat → Array (StagedPage α) → AdjacencyStore α →
      Except EngineError Unit × Array (StagedPage α) × AdjacencyStore α
  | [], pages, store => (.ok (), pages, store)
  | page :: rest, pages, store =>
      let lists := (pages[page]?.map fun p => p.lists.toList).getD []
      let pages := pages.setIfInBounds page ⟨#[]⟩
      match compressLists (page * pageNodes) lists store writer with
      | (.error e, store) => (.error e, pages, store)
      | (.ok (), store) => compressPages writer rest pages store

/-- Compresses all pages, one page a batch. Pages that were taken stay empty, also when the run is
stopped half way. -/
def compress (b : AdjacencyBuffer α) (layout : PropertyLayout) (concurrency : Nat) :
    Watched (Except EngineError (CompressedAdjacency α) × AdjacencyBuffer α) := fun t j =>
  match b with
  | ⟨nodeCount, propertyCount, pages⟩ =>
      let queue := BatchQueue.ofPartitions
        ((List.range pages.size).map fun page => ⟨page, 1⟩)
      let action : BatchQueue.Action (Array (StagedPage α) × AdjacencyStore α) :=
        fun batch (pages, store) _ j =>
          match compressPages .empty batch.elements pages store with
          | (outcome, pages, store) => ((outcome, (pages, store)), j)
      match queue.consume concurrency action (pages, .make nodeCount layout) t j with
      | ((.error e, (pages, _)), j) => ((.error e, ⟨nodeCount, propertyCount, pages⟩), j)
      | ((.ok (), (pages, store)), j) =>
          ((.ok store.build, ⟨nodeCount, propertyCount, pages⟩), j)

end AdjacencyBuffer
end CommunityGraph
