import CommunityGraph.Proofs.Codec.Packing
import CommunityGraph.Proofs.Staging.AdjacencyBuffer

/-! Compressing a buffer: the lists are stored node by node and page by page, each page by a writer of
its own, until all are stored, the run is stopped or memory is short. -/
namespace CommunityGraph.AdjacencyBuffer
open StagedEntry
variable {α : Type}

def finalRows [Weight α] (layout : PropertyLayout) (entries : List (StagedEntry α)) (node : Nat) :
    List (Row α) :=
  Row.arrange layout (rowsOf node entries)

variable [Weight α] {nodeCount : Nat} {layout : PropertyLayout} {entries : List (StagedEntry α)}

def Exhausts (nodeCount : Nat) (layout : PropertyLayout) (entries : List (StagedEntry α))
    (e : EngineError) : Prop :=
  (∃ bytes, e = .allocationFailed bytes) ∧
    ∃ node < nodeCount, ¬ AdjacencyStore.Storable layout.propertyCount (finalRows layout entries node)

structure Progress (nodeCount : Nat) (layout : PropertyLayout) (entries : List (StagedEntry α))
    (next : Nat) (store : AdjacencyStore α) : Prop where
  sound : store.Sound
  nodes : store.nodeCount = nodeCount
  properties : store.layout = layout
  stored : ∀ node < nodeCount, node < next → store.Stored node (finalRows layout entries node)
  fresh : ∀ node < nodeCount, next ≤ node → store.Stored node []
  balanced : store.Balanced

theorem noProgress : Progress nodeCount layout entries 0 (.make nodeCount layout) where
  sound := AdjacencyStore.makeSound _ _
  nodes := rfl
  properties := rfl
  stored _ _ before := absurd before (Nat.not_lt_zero _)
  fresh _ inside _ := AdjacencyStore.makeStored inside layout
  balanced := AdjacencyStore.makeBalanced _ _

theorem Progress.past {next later : Nat} {store : AdjacencyStore α}
    (progress : Progress nodeCount layout entries next store) (beyond : nodeCount ≤ next)
    (after : next ≤ later) : Progress nodeCount layout entries later store where
  sound := progress.sound
  nodes := progress.nodes
  properties := progress.properties
  stored node inside _ := progress.stored node inside (by omega)
  fresh node inside outside := by omega
  balanced := progress.balanced

theorem compressOne {next : Nat} {store : AdjacencyStore α} {writer : AdjacencyWriter}
    {list : StagedList α} (progress : Progress nodeCount layout entries next store)
    (on : writer.On store) (inside : next < nodeCount)
    (keeps : list.Keeps layout.propertyCount (rowsOf next entries)) :
    ∃ outcome after writer',
      store.compress writer next list.targets list.values none = (outcome, after, writer') ∧
      ((∃ arranged, outcome = .ok arranged) ∧ writer'.On after ∧
          Progress nodeCount layout entries (next + 1) after ∨
        ∃ e, outcome = .error e ∧ Exhausts nodeCount layout entries e) := by
  have accepts : AdjacencyStore.Accepts store.nodeCount store.layout next list.targets
      list.values := by
    rw [progress.nodes, progress.properties, keeps.targets, keeps.values]
    exact ⟨inside, by simp, fun column member => by
      rw [Row.columnsEven keeps.wide column member, List.length_map]⟩
  have rows : AdjacencyStore.arrangedRows store.layout none list.targets list.values =
      finalRows layout entries next := by
    rw [progress.properties, keeps.targets, keeps.values]
    simp only [AdjacencyStore.arrangedRows, AdjacencyStore.mappedTargets,
      Row.ofColumnsColumns keeps.wide, finalRows]
  obtain ⟨outcome, after, writer', same, changed, result⟩ :=
    AdjacencyStore.compressAccepted none progress.sound on accepts
  rw [rows, progress.properties] at result
  refine ⟨outcome, after, writer', same, ?_⟩
  rcases result with ⟨ended, stored, total⟩ | ⟨bytes, ended, costly⟩
  · left
    have empty := progress.fresh next inside (Nat.le_refl _)
    refine ⟨⟨_, ended⟩, changed.on, changed.sound, changed.frame.nodeCount.trans progress.nodes,
      changed.frame.layout.trans progress.properties, ?_, ?_, ?_⟩
    · intro node small before
      rcases Nat.lt_succ_iff_lt_or_eq.mp before with earlier | here
      · exact (progress.stored node small earlier).later changed.frame (by omega)
      · exact here ▸ stored
    · intro node small behind
      exact (progress.fresh node small (by omega)).later changed.frame (by omega)
    · exact changed.balanced (progress.nodes.symm ▸ inside) progress.balanced empty stored total
  · exact .inr ⟨_, ended, ⟨bytes, rfl⟩, next, inside, costly⟩

theorem compressListsEnds {next : Nat} {store : AdjacencyStore α} {writer : AdjacencyWriter}
    {lists : List (StagedList α)} (progress : Progress nodeCount layout entries next store)
    (on : writer.On store) (inside : next + lists.length ≤ nodeCount)
    (keeps : ∀ (index : Nat) (list : StagedList α), lists[index]? = some list →
      list.Keeps layout.propertyCount (rowsOf (next + index) entries)) :
    (∃ after, compressLists next lists store writer = (.ok (), after) ∧
        Progress nodeCount layout entries (next + lists.length) after) ∨
      ∃ e after, compressLists next lists store writer = (.error e, after) ∧
        Exhausts nodeCount layout entries e := by
  induction lists generalizing next store writer with
  | nil => exact .inl ⟨store, rfl, progress⟩
  | cons list lists ih =>
    rw [List.length_cons] at inside
    obtain ⟨outcome, after, writer', same, result⟩ :=
      compressOne progress on (by omega) (keeps 0 list rfl)
    rcases result with ⟨⟨arranged, rfl⟩, on', further⟩ | ⟨e, rfl, exhausts⟩
    · have rest := ih further on' (by omega) fun index other found => by
        have there := keeps (index + 1) other found
        rwa [Nat.add_assoc, Nat.add_comm 1]
      have step : compressLists next (list :: lists) store writer =
          compressLists (next + 1) lists after writer' := by
        simp only [compressLists, same]
      rw [step, List.length_cons, Nat.add_comm lists.length, ← Nat.add_assoc]
      exact rest
    · exact .inr ⟨e, after, by simp only [compressLists, same], exhausts⟩

structure Taken (b : AdjacencyBuffer α) (nodeCount : Nat) (layout : PropertyLayout)
    (entries : List (StagedEntry α)) (index : Nat)
    (state : Array (StagedPage α) × AdjacencyStore α) : Prop where
  ahead : ∀ page, index ≤ page → state.1[page]? = b.pages[page]?
  progress : Progress nodeCount layout entries (index * pageNodes) state.2

theorem compressPageEnds {b : AdjacencyBuffer α}
    (holds : Holds nodeCount layout.propertyCount entries b) {index : Nat}
    (inside : index < b.pages.size) {state : Array (StagedPage α) × AdjacencyStore α}
    (taken : Taken b nodeCount layout entries index state) :
    match compressPages .empty [index] state.1 state.2 with
    | (.ok (), pages, store) => Taken b nodeCount layout entries (index + 1) (pages, store)
    | (.error e, _) => Exhausts nodeCount layout entries e := by
  obtain ⟨pages, store⟩ := state
  have found := Array.getElem?_eq_getElem inside
  have here : pages[index]? = some b.pages[index] := (taken.ahead index (Nat.le_refl _)).trans found
  have size := holds.lists index _ found
  have start : index * pageNodes < nodeCount := by
    have last := holds.pages
    simp only [ceilDiv] at last
    have positive : pageNodes = 4096 := rfl
    rw [positive] at last ⊢
    omega
  have length : b.pages[index].lists.toList.length = min pageNodes (nodeCount - index * pageNodes) := by
    rw [Array.length_toList, size]
  have staged : ∀ (offset : Nat) (list : StagedList α),
      b.pages[index].lists.toList[offset]? = some list →
      list.Keeps layout.propertyCount (rowsOf (index * pageNodes + offset) entries) :=
    fun offset list place => holds.keeps index _ offset list found (by simpa using place)
  have lists := compressListsEnds taken.progress (AdjacencyWriter.emptyOn store)
    (by rw [length]; omega) staged
  rcases lists with ⟨after, same, progress⟩ | ⟨e, after, same, exhausts⟩
  · simp only [compressPages, here, Option.map_some, Option.getD_some, same]
    refine ⟨fun page behind => ?_, ?_⟩
    · have apart : index ≠ page := by omega
      simpa [apart] using taken.ahead page (by omega)
    · rw [length] at progress
      have next : (index + 1) * pageNodes = index * pageNodes + pageNodes := Nat.succ_mul _ _
      rw [next]
      by_cases full : pageNodes ≤ nodeCount - index * pageNodes
      · rwa [Nat.min_eq_left full] at progress
      · exact progress.past (by omega) (by omega)
  · simp only [compressPages, here, Option.map_some, Option.getD_some, same]
    exact exhausts

structure Compacted (nodeCount : Nat) (layout : PropertyLayout) (entries : List (StagedEntry α))
    (store : AdjacencyStore α) : Prop where
  sound : store.Sound
  nodes : store.nodeCount = nodeCount
  properties : store.layout = layout
  stored : ∀ node < nodeCount, store.Stored node (finalRows layout entries node)
  balanced : store.Balanced

inductive CompressEnds (t : Termination) (nodeCount : Nat) (layout : PropertyLayout)
    (entries : List (StagedEntry α)) : Except EngineError (CompressedAdjacency α) → Prop where
  | built {store : AdjacencyStore α} (compacted : Compacted nodeCount layout entries store) :
      CompressEnds t nodeCount layout entries (.ok store.build)
  | stopped (stops : t.Stops) : CompressEnds t nodeCount layout entries (.error .terminated)
  | exhausted {e : EngineError} (exhausts : Exhausts nodeCount layout entries e) :
      CompressEnds t nodeCount layout entries (.error e)

def pageAction : BatchQueue.Action (Array (StagedPage α) × AdjacencyStore α) :=
  fun batch (pages, store) _ j =>
    match compressPages .empty batch.elements pages store with
    | (outcome, pages, store) => ((outcome, (pages, store)), j)

def pageBatches (b : AdjacencyBuffer α) : List Batch :=
  (List.range b.pages.size).map fun page => ⟨page, 1⟩

theorem pageKeeps {b : AdjacencyBuffer α}
    (holds : Holds nodeCount layout.propertyCount entries b) :
    BatchQueue.Keeps b.pageBatches pageAction (Taken b nodeCount layout entries)
      (Exhausts nodeCount layout entries) := by
  intro index batch state t j found taken
  simp only [pageBatches, List.getElem?_map, Option.map_eq_some_iff] at found
  obtain ⟨page, place, rfl⟩ := found
  obtain ⟨inside, rfl⟩ := List.getElem?_eq_some_iff.mp place
  simp only [List.length_range] at inside
  have ended := compressPageEnds holds inside taken
  obtain ⟨pages, store⟩ := state
  simp only [pageAction, List.getElem_range, Batch.elements, List.range'_one]
  generalize compressPages .empty [index] pages store = answer at ended ⊢
  obtain ⟨outcome, later⟩ := answer
  cases outcome <;> exact ended

theorem compressConsumes (b : AdjacencyBuffer α) (layout : PropertyLayout) (concurrency : Nat)
    (t : Termination) (j : Journal) :
    (b.compress layout concurrency t j).1.1 =
      match ((BatchQueue.ofPartitions b.pageBatches).consume concurrency pageAction
        (b.pages, .make b.nodeCount layout) t j).1 with
      | (.error e, _) => .error e
      | (.ok (), (_, store)) => .ok store.build := by
  cases b with
  | mk nodeCount propertyCount pages =>
    unfold compress pageBatches pageAction
    dsimp only
    split
    · rename_i failed
      rw [failed]
    · rename_i finished
      rw [finished]

theorem compressEnds {b : AdjacencyBuffer α}
    (holds : Holds nodeCount layout.propertyCount entries b) (concurrency : Nat) (t : Termination)
    (j : Journal) :
    CompressEnds t nodeCount layout entries (b.compress layout concurrency t j).1.1 := by
  have start : Taken b nodeCount layout entries 0 (b.pages, .make b.nodeCount layout) := by
    refine ⟨fun _ _ => rfl, ?_⟩
    rw [Nat.zero_mul, holds.nodes]
    exact noProgress
  have ended := BatchQueue.consumeEnds (pageKeeps holds) concurrency start t j
  rw [compressConsumes]
  generalize ((BatchQueue.ofPartitions b.pageBatches).consume concurrency pageAction
    (b.pages, .make b.nodeCount layout) t j).1 = answer at ended ⊢
  cases ended with
  | @done state reached =>
    obtain ⟨pages, store⟩ := state
    have progress := reached.progress
    refine .built ⟨progress.sound, progress.nodes, progress.properties, fun node inside => ?_,
      progress.balanced⟩
    have positive : 0 < pageNodes := by decide
    have all := leMulCeilDiv nodeCount positive
    refine progress.stored node inside ?_
    simp only [pageBatches, List.length_map, List.length_range, holds.pages]
    rw [Nat.mul_comm]
    omega
  | stopped stops => exact .stopped stops
  | failed failure => exact .exhausted failure

end CommunityGraph.AdjacencyBuffer
