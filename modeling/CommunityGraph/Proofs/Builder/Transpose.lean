import Mathlib.Algebra.BigOperators.Group.List.Basic
import CommunityGraph.Proofs.Builder.Correctness

/-! The inverse lists are the transpose of the lists: both halves of a relationship take the same way
through slots and flushes, so parallel relationships meet in the same order at both ends. -/
namespace CommunityGraph.Builder
open AdjacencyBuffer Relationships Link
variable {α : Type}

def rowsTo (target : Nat) (list : List (Nat × List α)) : List (List α) :=
  (list.filter fun pair => pair.1 = target).map Prod.snd

theorem sumExchanged (xs ys : List Nat) (f : Nat → Nat → Nat) :
    (xs.map fun x => (ys.map fun y => f x y).sum).sum =
      (ys.map fun y => (xs.map fun x => f x y).sum).sum := by
  induction xs with
  | nil => simp
  | cons x xs ih =>
    simp only [List.map_cons, List.sum_cons, ih]
    rw [← List.sum_map_add]

theorem lengthByTarget {nodeCount : Nat} {list : List (Nat × List α)}
    (inside : ∀ pair ∈ list, pair.1 < nodeCount) :
    list.length = ((List.range nodeCount).map fun target => (rowsTo target list).length).sum := by
  induction list with
  | nil => simp [rowsTo]
  | cons pair list ih =>
    have small := inside pair (by simp)
    have rest := ih fun other member => inside other (List.mem_cons_of_mem _ member)
    have others : ∀ target, target ≠ pair.1 →
        (rowsTo target (pair :: list)).length = (rowsTo target list).length := by
      intro target apart
      simp [rowsTo, Ne.symm apart]
    have here : (rowsTo pair.1 (pair :: list)).length = (rowsTo pair.1 list).length + 1 := by
      simp [rowsTo]
    have raised := AdjacencyStore.sumChanged small others
    rw [here] at raised
    rw [List.length_cons, rest]
    omega

variable [Weight α] {nodeCount : Nat} {config : BuilderConfig α} {layout : PropertyLayout}
  {links : List (Link α)} {adjacency inverse : AdjacencyList}
  {properties inverseProperties : List (RelationshipProperty α)}

structure Transposed (nodeCount : Nat) (adjacency inverse : AdjacencyList)
    (properties inverseProperties : List (RelationshipProperty α)) : Prop where
  rows : ∀ source < nodeCount, ∀ target < nodeCount,
    rowsTo target (listed adjacency properties source) =
      rowsTo source (listed inverse inverseProperties target)
  count : adjacency.relationshipCount = inverse.relationshipCount
  readable : ∀ node < nodeCount, Readable adjacency properties node ∧
    Readable inverse inverseProperties node

theorem Listed.degree
    (lists : Listed nodeCount config layout (links.map Link.stage) adjacency properties)
    (valid : config.Valid layout) (words : nodeCount ≤ UInt64.size)
    (inside : Inside nodeCount links) {node : Nat} (small : node < nodeCount) :
    adjacency.degree node =
      ((List.range nodeCount).map fun target =>
        (rowsTo target (listed adjacency properties node)).length).sum := by
  have reads := lists.reads valid small
  have targets : ∀ pair ∈ listed adjacency properties node, pair.1 < nodeCount := by
    intro pair member
    rw [reads.listed] at member
    obtain ⟨row, stored, rfl⟩ := List.mem_map.mp member
    have there : row.target ∈ (finalRows layout (links.map Link.stage) node).map Row.target :=
      List.mem_map_of_mem stored
    rw [finalRows, Row.arrangeTargets] at there
    obtain ⟨staged, chosen, same⟩ := List.mem_map.mp there
    have read : staged.read ∈ outgoing node links := by
      rw [← readStaged words inside node]
      exact List.mem_map_of_mem chosen
    obtain ⟨link, taken, made⟩ := List.mem_map.mp read
    have bound := (inside link (List.mem_of_mem_filter taken)).2
    have place : link.target = row.target.toNat := by
      rw [← same]
      exact congrArg Prod.fst made
    simp only [Row.read, ← place]
    exact bound
  rw [← lengthByTarget targets, reads.listed, List.length_map, AdjacencyList.degree,
    Array.getD_eq_getD_getElem?]
  have degree := reads.degree
  rw [AdjacencyList.degree?] at degree
  rw [degree, Option.getD_some]

theorem listedTransposed
    (lists : Listed nodeCount config layout (links.map Link.stage) adjacency properties)
    (inverseLists : Listed nodeCount config layout ((links.map Link.swap).map Link.stage) inverse
      inverseProperties)
    (valid : config.Valid layout) (words : nodeCount ≤ UInt64.size)
    (inside : Inside nodeCount links) :
    Transposed nodeCount adjacency inverse properties inverseProperties := by
  have rows : ∀ source < nodeCount, ∀ target < nodeCount,
      rowsTo target (listed adjacency properties source) =
        rowsTo source (listed inverse inverseProperties target) := by
    intro source sourceInside target targetInside
    have forward := lists.between valid words inside sourceInside targetInside
    have backward := inverseLists.between valid words (swapInside inside) targetInside sourceInside
    rw [betweenSwap] at backward
    exact forward.trans backward.symm
  refine ⟨rows, ?_, fun node small => ⟨(lists.reads valid small).readable (lists.length valid),
    (inverseLists.reads valid small).readable (inverseLists.length valid)⟩⟩
  have forward : (List.range nodeCount).map adjacency.degree =
      (List.range nodeCount).map fun source => ((List.range nodeCount).map fun target =>
        (rowsTo target (listed adjacency properties source)).length).sum :=
    List.map_congr_left fun node member =>
      lists.degree valid words inside (List.mem_range.mp member)
  have backward : (List.range nodeCount).map inverse.degree =
      (List.range nodeCount).map fun target => ((List.range nodeCount).map fun source =>
        (rowsTo target (listed adjacency properties source)).length).sum := by
    refine List.map_congr_left fun target member => ?_
    have targetInside := List.mem_range.mp member
    rw [inverseLists.degree valid words (swapInside inside) targetInside]
    refine congrArg List.sum (List.map_congr_left fun source member => ?_)
    rw [rows source (List.mem_range.mp member) target targetInside]
  rw [lists.total, inverseLists.total, forward, backward, sumExchanged]

theorem inverseTransposes {idMap : IdMap} (dense : idMap.Dense) {b : Builder α}
    (made : make idMap config = .ok b) (indexed : config.indexInverse = true)
    (additions : List (Addition α)) (t : Termination) (j : Journal) :
    ∃ layout, config.layout = .ok layout ∧
      Delivers t (ShortOfMemory idMap.nodeCount config layout
          (additions.filterMap (link? idMap config layout)))
        (fun r => ∃ topology, r.inverseTopology = some topology ∧
          Transposed idMap.nodeCount r.topology.adjacency topology.adjacency r.properties
            r.inverseProperties)
        ((b.performAll additions).build t j).1 := by
  obtain ⟨layout, found, valid, runs⟩ := makeRuns made
  refine ⟨layout, found, (runs.performAll valid additions).delivers t j fun r built => ?_⟩
  have oneWay := valid.oneWay indexed
  have inside := arrivedInside valid (linksInside dense config layout additions)
  obtain ⟨topology, there, inverseLists⟩ := built.inverse indexed
  have lists := built.lists
  rw [List.nil_append, arrivedStaged] at lists
  rw [List.nil_append, inverseStaged oneWay] at inverseLists
  exact ⟨topology, there, listedTransposed lists inverseLists valid dense.words inside⟩

def indexedConfig : BuilderConfig Rat :=
  { sampleConfig with orientation := .reverse, indexInverse := true }

theorem sampleTransposes :
    ∃ b r topology, (IdMap.direct 3).Dense ∧ make (.direct 3) indexedConfig = .ok b ∧
      indexedConfig.indexInverse = true ∧
      ((b.performAll sampleAdditions).build .always .empty).1 = .ok r ∧
      r.inverseTopology = some topology ∧
      Transposed 3 r.topology.adjacency topology.adjacency r.properties r.inverseProperties := by
  have dense : (IdMap.direct 3).Dense := IdMap.directDense (by decide)
  obtain ⟨b, made⟩ : ∃ b, make (.direct 3) indexedConfig = .ok b := ⟨_, rfl⟩
  have works : (outcome (.direct 3) indexedConfig sampleAdditions).toBool = true := by cbv
  obtain ⟨r, built⟩ := outcomeOk made works
  obtain ⟨layout, -, delivered⟩ :=
    inverseTransposes dense made rfl sampleAdditions .always .empty
  rw [built] at delivered
  obtain ⟨topology, there, transposed⟩ := delivered
  exact ⟨b, r, topology, dense, made, rfl, built, there, transposed⟩

end CommunityGraph.Builder
