import CommunityGraph.Proofs.Louvain.Collapse
import CommunityGraph.Proofs.Louvain.Gain

/-! Between which values a modularity lies. It is least when two halves of the weight are apart from each
other with nothing inside, and no division has all of the weight inside and none expected there. -/
namespace CommunityGraph

namespace Network
variable {network : Network Rat}

def Nonnegative (network : Network Rat) : Prop :=
  ∀ node < network.nodeCount, ∀ entry ∈ network.row node, 0 ≤ entry.2

instance : Decidable network.Nonnegative :=
  inferInstanceAs (Decidable (∀ node < network.nodeCount, ∀ entry ∈ network.row node, 0 ≤ entry.2))

theorem pairSumMono (nonneg : network.Nonnegative) {f f' : Nat → Nat → Rat}
    (below : ∀ u v, f u v ≤ f' u v) : network.pairSum f ≤ network.pairSum f' := by
  refine Finset.sum_le_sum fun u within => List.sum_le_sum fun entry member => ?_
  exact mul_le_mul_of_nonneg_right (below u entry.1)
    (nonneg u (Finset.mem_range.mp within) entry member)

theorem pairSumNonneg (nonneg : network.Nonnegative) {f : Nat → Nat → Rat}
    (above : ∀ u v, 0 ≤ f u v) : 0 ≤ network.pairSum f := by
  refine Finset.sum_nonneg fun u within => List.sum_nonneg fun weight member => ?_
  obtain ⟨entry, there, rfl⟩ := List.mem_map.mp member
  exact mul_nonneg (above u entry.1) (nonneg u (Finset.mem_range.mp within) entry there)

end Network

namespace Modularity
open Network

section Parts
variable {n : Nat} {part : Nat → Rat} {total inner : Rat}

/-- However a whole is split, the squares of the parts exceed what is inside by half of the whole's square
at most, if what is inside of a part is more than what the rest can take. -/
theorem partsBelow (nonneg : ∀ number, 0 ≤ part number)
    (whole : ∑ number ∈ Finset.range n, part number = total) (positive : 0 < total)
    (some : 0 ≤ inner) (kept : ∀ number, part number + part number - total ≤ inner) :
    ∑ number ∈ Finset.range n, part number * part number ≤ inner * total + total * total / 2 := by
  -- Only a part of more than half of the whole can have a square above the half of the whole's square.
  by_cases heavy : ∃ number ∈ Finset.range n, total / 2 < part number
  · obtain ⟨number, member, most⟩ := heavy
    have others := whole
    rw [← Finset.add_sum_erase _ _ member] at others
    have rest : ∑ other ∈ (Finset.range n).erase number, part other * part other ≤
        (total - part number) * (total - part number) := by
      have squares := Finset.sum_sq_le_sq_sum_of_nonneg (s := (Finset.range n).erase number)
        (f := part) fun other _ => nonneg other
      rw [← eq_sub_iff_add_eq'.mpr others]
      simpa only [sq] using squares
    have least : part number ≤ total := by
      have left := Finset.sum_nonneg (s := (Finset.range n).erase number)
        fun other _ => nonneg other
      linarith
    have inside := mul_le_mul_of_nonneg_right (kept number) positive.le
    have apart : 0 ≤ (part number - total / 2) * (3 / 2 * total - part number) :=
      mul_nonneg (by linarith) (by linarith)
    rw [← Finset.add_sum_erase _ _ member]
    linarith
  · have light : ∀ number ∈ Finset.range n, part number * part number ≤ part number * (total / 2) :=
      fun number member => mul_le_mul_of_nonneg_left
        (not_lt.mp fun most => heavy ⟨number, member, most⟩) (nonneg number)
    calc ∑ number ∈ Finset.range n, part number * part number
        ≤ ∑ number ∈ Finset.range n, part number * (total / 2) := Finset.sum_le_sum light
      _ = total * total / 2 := by rw [← Finset.sum_mul, whole]; ring
      _ ≤ inner * total + total * total / 2 := le_add_of_nonneg_left (mul_nonneg some positive.le)

theorem partsPositive (positive : 0 < ∑ number ∈ Finset.range n, part number) :
    0 < ∑ number ∈ Finset.range n, part number * part number := by
  obtain ⟨number, member, some⟩ := Finset.exists_lt_of_sum_lt (f := fun _ => (0 : Rat))
    (by simpa using positive)
  exact Finset.sum_pos' (fun other _ => mul_self_nonneg (part other))
    ⟨number, member, mul_pos some some⟩

end Parts

section Divisions
variable {network : Network Rat} {label : Nat → Nat}

theorem degreeNonneg (nonneg : network.Nonnegative) (node : Nat) : 0 ≤ network.weightedDegree node := by
  rw [← degreeSum]
  exact pairSumNonneg nonneg fun u _ => by split <;> norm_num

theorem labelTotalNonneg (nonneg : network.Nonnegative) (number : Nat) :
    0 ≤ labelTotal network.nodeCount label network.weightedDegree number := by
  refine Finset.sum_nonneg fun node _ => ?_
  split
  · exact degreeNonneg nonneg node
  · exact le_rfl

theorem labelTotalPairs (network : Network Rat) (label : Nat → Nat) (number : Nat) :
    labelTotal network.nodeCount label network.weightedDegree number =
      network.pairSum fun u _ => if label u = number then 1 else 0 := by
  simp only [labelTotal, pairSumDegrees, ite_mul, one_mul, zero_mul]

theorem labelTotalsWhole (placed : ∀ u < network.nodeCount, label u < network.nodeCount) :
    ∑ number ∈ Finset.range network.nodeCount,
        labelTotal network.nodeCount label network.weightedDegree number =
      Louvain.totalWeight network := by
  rw [Louvain.totalPairs, pairSumDegrees]
  simp only [labelTotal, one_mul]
  rw [Finset.sum_comm]
  refine Finset.sum_congr rfl fun u member => ?_
  rw [Finset.sum_ite_eq, if_pos (Finset.mem_range.mpr (placed u (Finset.mem_range.mp member)))]

theorem innerKept (inside : network.Inside) (symmetric : network.SymmetricWeights)
    (nonneg : network.Nonnegative) (number : Nat) :
    labelTotal network.nodeCount label network.weightedDegree number +
        labelTotal network.nodeCount label network.weightedDegree number -
        Louvain.totalWeight network ≤
      network.pairSum (together label) := by
  let leaves (u _ : Nat) : Rat := if label u = number then 1 else 0
  have covered : network.pairSum (fun u v => leaves u v + leaves v u) ≤
      network.pairSum fun u v => together label u v + 1 := by
    refine pairSumMono nonneg fun u v => ?_
    -- Both ends count only where they are together.
    by_cases first : label u = number <;> by_cases second : label v = number
    · simp [leaves, together, first, second]
    · simp only [leaves, if_pos first, if_neg second, together]
      split <;> norm_num
    · simp [leaves, together, first, second]
    · have least : 0 ≤ together label u v := by
        rw [together]
        split <;> norm_num
      simp only [leaves, if_neg first, if_neg second]
      linarith
  rw [pairSumAdd leaves fun u v => leaves v u, pairSumAdd (together label),
    ← pairSumSwap inside symmetric leaves, ← Louvain.totalPairs, ← labelTotalPairs] at covered
  exact sub_le_iff_le_add.mpr covered

theorem qualityBounded (inside : network.Inside) (symmetric : network.SymmetricWeights)
    (nonneg : network.Nonnegative) (positive : 0 < Louvain.totalWeight network)
    (placed : ∀ u < network.nodeCount, label u < network.nodeCount) :
    -(1 / 2) ≤ quality network label (Louvain.totalWeight network) ∧
      quality network label (Louvain.totalWeight network) < 1 := by
  have whole := labelTotalsWhole placed
  have some : 0 ≤ network.pairSum (together label) := pairSumNonneg nonneg fun u v => by
    rw [together]
    split <;> norm_num
  have most : network.pairSum (together label) ≤ Louvain.totalWeight network := by
    rw [Louvain.totalPairs]
    refine pairSumMono nonneg fun u v => ?_
    rw [together]
    split <;> norm_num
  have below := partsBelow (labelTotalNonneg nonneg) whole positive some
    (innerKept inside symmetric nonneg)
  have expected := partsPositive (whole ▸ positive)
  have square := mul_pos positive positive
  rw [qualityTotals placed positive]
  constructor
  · have share : network.pairSum (together label) / Louvain.totalWeight network =
        network.pairSum (together label) * Louvain.totalWeight network /
          (Louvain.totalWeight network * Louvain.totalWeight network) :=
      (mul_div_mul_right _ _ positive.ne').symm
    rw [share, ← sub_div, le_div_iff₀ square]
    linarith
  · have share := (div_le_one positive).mpr most
    have apart := div_pos expected square
    linarith

/-- On symmetric weights that are not negative, and not all zero, no division of the nodes has a modularity
below `-1/2`, or of `1`. -/
theorem modularityBounded {labels : Array Nat} (inside : network.Inside)
    (symmetric : network.SymmetricWeights) (nonneg : network.Nonnegative)
    (positive : 0 < Weight.sum network.weightedDegrees.toList) (covers : Covers network labels = true) :
    ∃ value, modularity? network labels network.weightedDegrees
        (Weight.sum network.weightedDegrees.toList) = some value ∧
      -(1 / 2) ≤ value ∧ value < 1 := by
  obtain ⟨size, small⟩ : labels.size = network.nodeCount ∧ ∀ label ∈ labels, label < labels.size := by
    rw [Covers, Bool.and_eq_true, Array.all_eq_true_iff_forall_mem] at covers
    simpa using covers
  have placed : ∀ node < network.nodeCount, labels.getD node 0 < network.nodeCount := by
    intro node within
    rw [Array.getD_eq_getD_getElem?, Array.getElem?_eq_getElem (size.symm ▸ within)]
    exact (small _ (Array.getElem_mem _)).trans_eq size
  have bounds := qualityBounded inside symmetric nonneg positive placed
  rw [← modularityQuality size placed] at bounds
  refine ⟨_, ?_, bounds⟩
  rw [modularity?, covers, Bool.or_true]
  rfl

def samplePair : Network Rat := ⟨#[[(1, 1)], [(0, 1)]]⟩

theorem sampleBounded :
    modularity? samplePair #[0, 1] samplePair.weightedDegrees 2 = some (-(1 / 2)) ∧
      ∃ value, modularity? samplePair #[0, 1] samplePair.weightedDegrees
        (Weight.sum samplePair.weightedDegrees.toList) = some value ∧ -(1 / 2) ≤ value ∧ value < 1 := by
  have inside : samplePair.Inside :=
    Network.Mirrored.inside (Network.mirroredEdges (by decide))
  have symmetric : samplePair.SymmetricWeights := symmetricWithin inside (by decide +kernel)
  exact ⟨by decide +kernel,
    modularityBounded inside symmetric (by decide +kernel) (by decide +kernel) (by decide +kernel)⟩

end Divisions
end Modularity
end CommunityGraph
