import CommunityGraph.Proofs.Builder.Opening
import CommunityGraph.Proofs.Builder.Straddling
import CommunityGraph.Proofs.Louvain.Modularities

/-! Collapsing a level loses nothing that the search goes by: entries are added up by the labels of their
ends, so degrees, the whole weight and the modularity of divisions are those of the level. -/
namespace CommunityGraph

namespace Network
variable {network : Network Rat} {label : Nat → Nat} {a b : Nat}

def labelWeights (network : Network Rat) (label : Nat → Nat) (a b : Nat) : List Rat :=
  (List.range network.nodeCount).flatMap fun node =>
    ((network.row node).filter fun entry => label node = a ∧ label entry.1 = b).map Prod.snd

theorem linksBetween (network : Network Rat) (label : Nat → Nat) (a b : Nat) :
    ((Link.between a b (network.links label (List.range network.nodeCount))).filterMap
      fun values => values[0]?) = network.labelWeights label a b := by
  simp only [Link.between, links, labelWeights, List.filter_flatMap, List.map_flatMap,
    List.filterMap_flatMap, List.filter_map, List.map_map, List.filterMap_map]
  refine List.flatMap_congr fun node _ => ?_
  rw [← List.filterMap_eq_map]
  rfl

theorem memLabelWeights {weight : Rat} : weight ∈ network.labelWeights label a b ↔
    ∃ u < network.nodeCount, ∃ v, (v, weight) ∈ network.row u ∧ label u = a ∧ label v = b := by
  simp only [labelWeights, List.mem_flatMap, List.mem_range, List.mem_map, List.mem_filter,
    decide_eq_true_eq, Prod.exists, exists_eq_right]

end Network

namespace Louvain
open Builder

section Counted
variable {count : Nat} {links arrivals : List (Link Rat)} {network next : Network Rat}
  {label : Nat → Nat}

theorem foldWhole (values : List Rat) :
    Aggregation.sum.fold? values = if values = [] then none else some values.sum := by
  have whole := foldSum values
  cases values with
  | nil => rfl
  | cons value values => exact congrArg some (by simpa [Aggregation.fold?] using whole)

structure Collapsed (network : Network Rat) (label : Nat → Nat) (count : Nat) (next : Network Rat) :
    Prop where
  nodes : next.nodeCount = count
  inside : next.Inside
  entries : ∀ a b, next.between a b =
    if network.labelWeights label a b = [] then [] else [(network.labelWeights label a b).sum]
  mirrored : network.Mirrored → next.Mirrored
  symmetric : network.SymmetricWeights → next.SymmetricWeights
  degrees : ∀ a, next.weightedDegree a =
    Modularity.labelTotal network.nodeCount label network.weightedDegree a
  total : totalWeight next = totalWeight network
  modularity : ∀ (parts : Array Nat) (naming : Nat → Nat) (total : Rat),
    parts.size = count → (∀ a < count, parts.getD a 0 < count) →
    (∀ a < count, naming (parts.getD a 0) < network.nodeCount) →
    (∀ a < count, ∀ b < count, naming (parts.getD a 0) = naming (parts.getD b 0) →
      parts.getD a 0 = parts.getD b 0) →
    Modularity.modularity next parts next.weightedDegrees total =
      Modularity.modularity network
        ((List.range network.nodeCount).map fun node => naming (parts.getD (label node) 0)).toArray
        network.weightedDegrees total

theorem totalPairs (network : Network Rat) : totalWeight network = network.pairSum fun _ _ => 1 := by
  rw [totalWeight, weightSum, Network.degreesList, rangeSum, Network.pairSumDegrees]
  exact Finset.sum_congr rfl fun node _ => (one_mul _).symm

section Summed
variable (summed : Summed count (network.links label (List.range network.nodeCount)) arrivals next)
  (inside : network.Inside) (small : ∀ node < network.nodeCount, label node < count)
include summed

theorem Summed.joins (a b : Nat) :
    b ∈ next.targets a ↔ ∃ u v, v ∈ network.targets u ∧ label u = a ∧ label v = b := by
  rw [summed.linked, Network.linksTargets]

theorem Summed.mirrored (mirrored : network.Mirrored) : next.Mirrored := by
  intro a b member
  obtain ⟨u, v, joined, rfl, rfl⟩ := (summed.joins a b).mp member
  exact (summed.joins _ _).mpr ⟨v, u, mirrored u v joined, rfl, rfl⟩

include inside small

theorem Summed.regroups (f : Nat → Nat → Rat) :
    next.pairSum f = network.pairSum fun u v => f (label u) (label v) :=
  (summed.pairSum (Network.linksWithin inside small) f).trans (linksSum label f)

theorem Summed.grouped (a b : Nat) : next.between a b =
    if network.labelWeights label a b = [] then [] else [(network.labelWeights label a b).sum] := by
  by_cases within : a < count ∧ b < count
  · have values := ((summed.arrived.filter fun link => link.source = a ∧ link.target = b).map
      Link.values).filterMap fun values => values[0]?
    have same := Aggregation.foldPerm (a := .sum) rfl (by decide) values
    have folded := summed.weights a within.1 b within.2
    rw [Link.between, same] at folded
    have grouped := Network.linksBetween network label a b
    rw [Link.between] at grouped
    rw [folded, grouped, foldWhole]
    split <;> rfl
  · have none : network.labelWeights label a b = [] := by
      refine List.eq_nil_iff_forall_not_mem.mpr fun weight member => within ?_
      obtain ⟨u, hu, v, there, rfl, rfl⟩ := Network.memLabelWeights.mp member
      exact ⟨small u hu, small v (inside u v (List.mem_map_of_mem there))⟩
    rw [if_pos none]
    exact Network.betweenOutside summed.inside (summed.nodes.symm ▸ within)

theorem Summed.symmetricWeights (symmetric : network.SymmetricWeights) :
    next.SymmetricWeights := by
  intro a b
  let pair (a b u v : Nat) : Rat := if u = a ∧ v = b then 1 else 0
  calc (next.between a b).sum = next.pairSum (pair a b) := (Network.betweenSum a b).symm
    _ = network.pairSum fun u v => pair a b (label u) (label v) :=
      summed.regroups inside small _
    _ = network.pairSum fun u v => pair a b (label v) (label u) :=
      Network.pairSumSwap inside symmetric _
    _ = network.pairSum fun u v => pair b a (label u) (label v) :=
      Network.pairSumCongr inside fun u _ v _ => if_congr and_comm rfl rfl
    _ = next.pairSum (pair b a) := (summed.regroups inside small _).symm
    _ = (next.between b a).sum := Network.betweenSum b a

theorem Summed.degrees (a : Nat) : next.weightedDegree a =
    Modularity.labelTotal network.nodeCount label network.weightedDegree a := by
  rw [← Network.degreeSum, summed.regroups inside small, Network.pairSumDegrees]
  simp only [Modularity.labelTotal, ite_mul, one_mul, zero_mul]

theorem Summed.modularity {parts : Array Nat} {naming : Nat → Nat} (size : parts.size = count)
    (parted : ∀ a < count, parts.getD a 0 < count)
    (named : ∀ a < count, naming (parts.getD a 0) < network.nodeCount)
    (injective : ∀ a < count, ∀ b < count, naming (parts.getD a 0) = naming (parts.getD b 0) →
      parts.getD a 0 = parts.getD b 0) (total : Rat) :
    Modularity.modularity next parts next.weightedDegrees total =
      Modularity.modularity network
        ((List.range network.nodeCount).map fun node => naming (parts.getD (label node) 0)).toArray
        network.weightedDegrees total := by
  let labels := ((List.range network.nodeCount).map fun node =>
    naming (parts.getD (label node) 0)).toArray
  have composed : ∀ node < network.nodeCount,
      labels.getD node 0 = naming (parts.getD (label node) 0) := by
    intro node inside
    simp [labels, inside]
  have placed : ∀ node < network.nodeCount, labels.getD node 0 < network.nodeCount :=
    fun node inside => composed node inside ▸ named _ (small node inside)
  have derived := Derived.collapsed .first small summed
  rw [Modularity.modularityQuality (size.trans summed.nodes.symm) (summed.nodes.symm ▸ parted),
    Modularity.modularityQuality (by simp [labels]) placed, derived.quality inside]
  refine Modularity.qualityCongr inside (fun u hu v hv => ?_) total
  rw [composed u hu, composed v hv]
  exact ⟨fun same => congrArg naming same,
    injective _ (small u hu) _ (small v hv)⟩

theorem Summed.collapsed : Collapsed network label count next where
  nodes := summed.nodes
  inside := summed.inside
  entries := summed.grouped inside small
  mirrored := summed.mirrored
  symmetric := summed.symmetricWeights inside small
  degrees := summed.degrees inside small
  total := by rw [totalPairs, totalPairs, summed.regroups inside small]
  modularity _ _ total size parted named injective :=
    summed.modularity inside small size parted named injective total

end Summed
end Counted

section Memory
variable {network : Network Rat} {rename : Nat → Nat} {count concurrency : Nat} {e : EngineError}

def Short (count concurrency : Nat) (e : EngineError) : Prop :=
  (e = .capacityOverflow ∧ Memory.canAsk concurrency BuilderSlot.bytes = false) ∨
    (∃ bytes, e = .allocationFailed bytes) ∧ Memory.maxBlock < 9 * count

theorem refusedShort (workers : 0 < concurrency) (refused :
    Builder.make (.direct count) (summing .natural concurrency : BuilderConfig Rat) = .error e) :
    e = .capacityOverflow ∧ Memory.canAsk concurrency BuilderSlot.bytes = false := by
  have held : LocalBuffer.canHold (summing .natural concurrency : BuilderConfig Rat).bufferSize
      summingLayout.propertyCount = true := by
    show LocalBuffer.canHold defaultBufferSize 1 = true
    decide
  rw [Builder.makeAmple _ (summingLayoutMade workers)] at refused
  split_ifs at refused with enough
  cases refused
  refine ⟨rfl, Bool.eq_false_iff.mpr fun asked => enough ⟨asked, held⟩⟩

theorem unmadeShort (workers : 0 < concurrency) (inside : network.Inside)
    (renamed : ∀ node < network.nodeCount, rename node < count)
    (unmade : Unmade network rename count .natural concurrency e) : Short count concurrency e := by
  rcases unmade with refused | infinite | exhausts | ⟨inverted, -⟩
  · exact .inl (refusedShort workers refused)
  · exact absurd (fun _ _ _ => rfl) infinite
  · refine .inr ⟨exhausts.1, Nat.not_le.mp fun packed => ?_⟩
    have valid : (summing .natural concurrency : BuilderConfig Rat).Valid summingLayout :=
      BuilderConfig.layoutValid (summingLayoutMade workers)
    have within := arrivedInside valid (Network.linksWithin inside renamed)
    have valued : count * summingLayout.propertyCount * 8 ≤ Memory.maxBlock := by
      have one : summingLayout.propertyCount = 1 := rfl
      rw [one]
      omega
    rw [arrivedStaged] at exhausts
    exact fewTargetsFit rfl within packed valued _ _ exhausts
  · cases inverted

end Memory

section Results
variable {network : Network Rat} {dense : Array Nat} {count : Nat} {c : LouvainConfig Rat}

/-- A level that is collapsed keeps everything, if memory suffices and the search may go on. -/
theorem collapsePreserves (words : count ≤ UInt64.size) (inside : network.Inside)
    (small : ∀ node < network.nodeCount, dense.getD node 0 < count) (workers : 0 < c.concurrency)
    (t : Termination) :
    Run.Ends t (Short count c.concurrency)
      (fun g => Collapsed network (fun node => dense.getD node 0) count g.network)
      (collapse network dense count c) := by
  have ends := collapseEnds words inside small c t
  refine (ends.failing fun _ => unmadeShort workers inside small).imp ?_
  rintro g ⟨-, arrivals, summed⟩
  exact summed.collapsed inside small

theorem sampleCollapses : ∃ g : Graph Rat,
    (collapse Network.sampleLine #[0, 0, 1, 1] 2 sampleSearch .always .empty).1 = .ok g ∧
    Collapsed Network.sampleLine (fun node => #[0, 0, 1, 1].getD node 0) 2 g.network ∧
    g.network.between 0 0 = [7] ∧ g.network.between 0 1 = [5] ∧ g.network.between 1 0 = [5] ∧
    g.network.between 1 1 = [2] ∧ g.network.Mirrored ∧ g.network.SymmetricWeights ∧
    Modularity.modularity g.network #[0, 1] g.network.weightedDegrees 19 =
      Modularity.modularity Network.sampleLine #[0, 0, 3, 3] Network.sampleLine.weightedDegrees 19 := by
  have mirrored : Network.sampleLine.Mirrored := Network.mirroredEdges (by decide)
  have symmetric : Network.sampleLine.SymmetricWeights :=
    Network.symmetricWithin mirrored.inside (by decide +kernel)
  have ends := @collapsePreserves Network.sampleLine #[0, 0, 1, 1] 2 sampleSearch (by decide)
    mirrored.inside (by decide) (by decide) .always
  have enough : ∀ e, Short 2 sampleSearch.concurrency e → False := by
    rintro e (⟨-, short⟩ | ⟨-, short⟩)
    · exact absurd short (by decide)
    · exact absurd short (by decide)
  obtain ⟨g, ran, collapsed⟩ := (ends.failing enough).unstopped .empty
  refine ⟨g, ran, collapsed, ?_, ?_, ?_, ?_, collapsed.mirrored mirrored,
    collapsed.symmetric symmetric, collapsed.modularity #[0, 1] (3 * ·) 19 rfl ?_ ?_ ?_⟩
  · exact (collapsed.entries 0 0).trans (by decide +kernel)
  · exact (collapsed.entries 0 1).trans (by decide +kernel)
  · exact (collapsed.entries 1 0).trans (by decide +kernel)
  · exact (collapsed.entries 1 1).trans (by decide +kernel)
  · decide
  · decide
  · decide

end Results
end Louvain
end CommunityGraph
