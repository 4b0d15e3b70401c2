import CommunityGraph.Proofs.Louvain.Choosing
import CommunityGraph.Proofs.Modularity

/-! What the score of a community says: by how much the modularity would grow, measured in halves of the
whole weight, if one node alone moved there. -/
namespace CommunityGraph

namespace Modularity
open Network LocalMoving

section Moved
variable {network : Network Rat} {label : Nat → Nat} {node goal : Nat} {total : Rat}

theorem squaresMoved {n : Nat} (placed : label node < n) (small : node < n) (within : goal < n)
    (differs : label node ≠ goal) (degree : Nat → Rat) :
    ∑ number ∈ Finset.range n, labelTotal n (Function.update label node goal) degree number *
        labelTotal n (Function.update label node goal) degree number =
      ∑ number ∈ Finset.range n,
          labelTotal n label degree number * labelTotal n label degree number +
        2 * degree node * (labelTotal n label degree goal -
          (labelTotal n label degree (label node) - degree node)) := by
  have each : ∀ number, labelTotal n (Function.update label node goal) degree number *
      labelTotal n (Function.update label node goal) degree number =
      labelTotal n label degree number * labelTotal n label degree number +
        (if goal = number then
          2 * degree node * labelTotal n label degree goal + degree node * degree node else 0) +
        (if label node = number then
          degree node * degree node - 2 * degree node * labelTotal n label degree (label node)
          else 0) := by
    intro number
    rw [labelTotalMoved small]
    -- the node leaves one total and enters another; all others stay
    by_cases left : label node = number
    · have elsewhere : goal ≠ number := fun same => differs (left.trans same.symm)
      subst left
      simp only [if_true, if_neg elsewhere]
      ring
    · by_cases entered : goal = number
      · subst entered
        simp only [if_neg left, if_true]
        ring
      · simp only [if_neg left, if_neg entered]
        ring
  simp only [each, Finset.sum_add_distrib, Finset.sum_ite_eq, Finset.mem_range, placed, within,
    if_true]
  ring

theorem nearSum (network : Network Rat) (label : Nat → Nat) (node community : Nat) :
    network.pairSum (fun u v => if u = node ∧ v ≠ node ∧ community = label v then 1 else 0) =
      (othersIn label node (network.row node) community).sum := by
  have rows : ∀ u, ((network.row u).map fun entry =>
      (if u = node ∧ entry.1 ≠ node ∧ community = label entry.1 then 1 else 0) * entry.2).sum =
      if u = node then (othersIn label node (network.row node) community).sum else 0 := by
    intro u
    by_cases here : u = node
    · subst here
      rw [othersIn, filterSum]
      simp [eq_comm (a := community)]
    · simp [here]
  simp only [pairSum, rows, Finset.sum_ite_eq', Finset.mem_range]
  split
  · rfl
  · rename_i outside
    rw [rowOutside (Nat.not_lt.mp outside)]
    rfl

theorem innerMoved (inside : network.Inside) (symmetric : network.SymmetricWeights)
    (differs : label node ≠ goal) :
    network.pairSum (together (Function.update label node goal)) =
      network.pairSum (together label) +
        2 * ((othersIn label node (network.row node) goal).sum -
          (othersIn label node (network.row node) (label node)).sum) := by
  -- loops stay inner, so what changes are the pairs with another node, once in each direction
  let near (community u v : Nat) : Rat :=
    if u = node ∧ v ≠ node ∧ community = label v then 1 else 0
  have pairs : ∀ u v, together (Function.update label node goal) u v + near (label node) u v +
      near (label node) v u = together label u v + near goal u v + near goal v u := by
    intro u v
    rcases eq_or_ne u node with rfl | first <;> rcases eq_or_ne v u with same | apart
    · simp [same, together, near]
    · simp [together, near, apart, add_comm]
    · simp [same, together, near, first]
    · rcases eq_or_ne v node with rfl | second
      · rw [togetherComm, togetherComm label]
        simp [together, near, first, add_comm]
      · simp [together, near, first, second]
  have swapped : ∀ community, network.pairSum (fun u v => near community v u) =
      (othersIn label node (network.row node) community).sum := fun community =>
    (pairSumSwap inside symmetric _).symm.trans (nearSum network label node community)
  have sums := congrArg network.pairSum (funext₂ pairs)
  rw [pairSumAdd (fun u v => together (Function.update label node goal) u v + near (label node) u v),
    pairSumAdd, pairSumAdd (fun u v => together label u v + near goal u v), pairSumAdd, swapped,
    swapped, nearSum, nearSum] at sums
  linarith

theorem qualityTotals (placed : ∀ u < network.nodeCount, label u < network.nodeCount)
    (positive : 0 < total) :
    quality network label total = network.pairSum (together label) / total -
      (∑ number ∈ Finset.range network.nodeCount,
        labelTotal network.nodeCount label network.weightedDegree number *
          labelTotal network.nodeCount label network.weightedDegree number) / (total * total) := by
  rw [quality, if_neg (not_le.mpr positive), labelTotalSquares placed]
  simp only [pairSumDegrees]

theorem qualityMoved (inside : network.Inside) (symmetric : network.SymmetricWeights)
    (positive : 0 < total) (placed : ∀ u < network.nodeCount, label u < network.nodeCount)
    (small : node < network.nodeCount) (within : goal < network.nodeCount)
    (differs : label node ≠ goal) :
    total / 2 * (quality network (Function.update label node goal) total -
        quality network label total) =
      score (othersIn label node (network.row node) goal).sum
          (labelTotal network.nodeCount label network.weightedDegree goal)
          (network.weightedDegree node / total) -
        score (othersIn label node (network.row node) (label node)).sum
          (labelTotal network.nodeCount label network.weightedDegree (label node) -
            network.weightedDegree node)
          (network.weightedDegree node / total) := by
  have placed' : ∀ u < network.nodeCount,
      Function.update label node goal u < network.nodeCount := by
    intro u hu
    rw [Function.update_apply]
    split
    · exact within
    · exact placed u hu
  rw [qualityTotals placed' positive, qualityTotals placed positive,
    squaresMoved (placed node small) small within differs, innerMoved inside symmetric differs]
  have nonzero : total ≠ 0 := ne_of_gt positive
  simp only [score]
  field_simp
  ring

end Moved
end Modularity

namespace LocalMoving

section Candidates
variable {network : Network Rat} {a : Assignment Rat} {degrees : Array Rat} {total : Rat}
  {node : Nat}

def staying (network : Network Rat) (a : Assignment Rat) (degrees : Array Rat) (total : Rat)
    (node : Nat) : Candidate Rat :=
  ⟨a.label node, stayScore a.totals (degrees.getD node 0) (degrees.getD node 0 / total)
    (a.label node) (neighbourWeights a.communities node (network.row node) [])⟩

def considered (network : Network Rat) (a : Assignment Rat) (degrees : Array Rat) (total : Rat)
    (node : Nat) : List (Candidate Rat) :=
  candidates a.totals (degrees.getD node 0 / total) (a.label node)
    (neighbourWeights a.communities node (network.row node) [])

theorem preferredChooses (positive : 0 < total) :
    preferredCommunity network a degrees total node =
      choose (staying network a degrees total node) (considered network a degrees total node) := by
  have some : Weight.le total Weight.zero = false := decide_eq_false (not_le.mpr positive)
  rw [preferredCommunity, some]
  rfl

theorem stayingScore : (staying network a degrees total node).score =
    score (othersIn a.label node (network.row node) (a.label node)).sum
      (a.totals.getD (a.label node) 0 - degrees.getD node 0) (degrees.getD node 0 / total) := by
  rw [← accumulateSum]
  exact congrArg (fun inner => score inner _ _) (aroundWeight network a node (a.label node))

theorem memConsidered {candidate : Candidate Rat} :
    candidate ∈ considered network a degrees total node ↔
      candidate.community ≠ a.label node ∧
      othersIn a.label node (network.row node) candidate.community ≠ [] ∧
      candidate.score = score (othersIn a.label node (network.row node) candidate.community).sum
        (a.totals.getD candidate.community 0) (degrees.getD node 0 / total) := by
  rw [← accumulateSum]
  exact memCandidates

theorem chooseCases (stay : Candidate Rat) (others : List (Candidate Rat)) :
    (choose stay others = stay.community ∧ ∀ other ∈ others, other.score ≤ stay.score) ∨
      ∃ other ∈ others, choose stay others = other.community ∧ stay.score < other.score := by
  rcases chooseTold exactRanks stay others with ⟨chosen, enough⟩ | ⟨best, top, leads, more, chosen⟩
  · exact .inl ⟨chosen, fun other member => not_lt.mp (of_decide_eq_false (enough other member))⟩
  · exact .inr ⟨best, leads.member, chosen, of_decide_eq_true more⟩

end Candidates

section Gain
variable {network : Network Rat} {a : Assignment Rat} {total : Rat} {node : Nat}

structure Consistent (network : Network Rat) (degrees : Array Rat) (a : Assignment Rat) : Prop where
  size : a.communities.size = network.nodeCount
  small : ∀ node < network.nodeCount, a.label node < network.nodeCount
  totalsSize : a.totals.size = network.nodeCount
  totals : ∀ community < network.nodeCount, a.totals[community]? =
    some (Modularity.labelTotal network.nodeCount a.label (fun node => degrees.getD node 0) community)

theorem labelSet {α : Type} {communities : Array Nat} {node : Nat} (small : node < communities.size)
    (goal : Nat) (totals totals' : Array α) :
    (Assignment.mk (communities.setIfInBounds node goal) totals).label =
      Function.update (Assignment.mk communities totals').label node goal := by
  funext other
  rw [Assignment.label, getDSet, Function.update_apply]
  simp only [small, and_true, eq_comm (a := node), Assignment.label]

def movedModularity (network : Network Rat) (a : Assignment Rat) (total : Rat)
    (node community : Nat) : Rat :=
  Modularity.modularity network (a.communities.setIfInBounds node community)
    network.weightedDegrees total

section Moving
variable (consistent : Consistent network network.weightedDegrees a)
include consistent

theorem Consistent.totalRead {community : Nat} (within : community < network.nodeCount) :
    a.totals.getD community 0 =
      Modularity.labelTotal network.nodeCount a.label network.weightedDegree community := by
  rw [Array.getD_eq_getD_getElem?, consistent.totals community within, Option.getD_some]
  refine Finset.sum_congr rfl fun u member => ?_
  have degree : network.weightedDegrees.getD u 0 = network.weightedDegree u :=
    Network.degreesGet (Finset.mem_range.mp member)
  simp only [degree]

variable (small : node < network.nodeCount)
include small

theorem Consistent.moved {community : Nat} (within : community < network.nodeCount) :
    movedModularity network a total node community =
      Modularity.quality network (Function.update a.label node community) total := by
  have label : (fun u => (a.communities.setIfInBounds node community).getD u 0) =
      Function.update a.label node community :=
    labelSet (consistent.size.symm ▸ small) community a.totals a.totals
  rw [movedModularity, Modularity.modularityQuality (by simp [consistent.size]), label]
  intro u hu
  have here := congrFun label u
  rw [here, Function.update_apply]
  split
  · exact within
  · exact consistent.small u hu

theorem Consistent.unmoved : movedModularity network a total node (a.label node) =
    Modularity.modularity network a.communities network.weightedDegrees total := by
  rw [consistent.moved small (consistent.small node small), Function.update_eq_self,
    Modularity.modularityQuality consistent.size consistent.small]
  rfl

variable (inside : network.Inside) (symmetric : network.SymmetricWeights) (positive : 0 < total)
include inside symmetric positive

theorem Consistent.gain {candidate : Candidate Rat}
    (member : candidate ∈ considered network a network.weightedDegrees total node) :
    candidate.score - (staying network a network.weightedDegrees total node).score =
      total / 2 * (movedModularity network a total node candidate.community -
        Modularity.modularity network a.communities network.weightedDegrees total) := by
  obtain ⟨other, some, score⟩ := memConsidered.mp member
  obtain ⟨target, there, -, same⟩ := othersInSome.mp some
  have within : candidate.community < network.nodeCount :=
    same ▸ consistent.small target (inside node target there)
  have own := consistent.small node small
  have degree : network.weightedDegrees.getD node 0 = network.weightedDegree node :=
    Network.degreesGet small
  have before : Modularity.modularity network a.communities network.weightedDegrees total =
      Modularity.quality network a.label total :=
    Modularity.modularityQuality consistent.size consistent.small total
  rw [score, stayingScore, consistent.totalRead within, consistent.totalRead own, degree,
    consistent.moved small within, before, Modularity.qualityMoved inside symmetric positive
      consistent.small small within other.symm]

theorem Consistent.rises {candidate : Candidate Rat}
    (member : candidate ∈ considered network a network.weightedDegrees total node) :
    (staying network a network.weightedDegrees total node).score < candidate.score ↔
      Modularity.modularity network a.communities network.weightedDegrees total <
        movedModularity network a total node candidate.community := by
  rw [← sub_pos, consistent.gain small inside symmetric positive member,
    mul_pos_iff_of_pos_left (half_pos positive), sub_pos]

end Moving

structure Guided (network : Network Rat) (a : Assignment Rat) (total : Rat) (node : Nat) : Prop where
  chooses : preferredCommunity network a network.weightedDegrees total node =
    choose (staying network a network.weightedDegrees total node)
      (considered network a network.weightedDegrees total node)
  nearby : ∀ community,
    (∃ candidate ∈ considered network a network.weightedDegrees total node,
      candidate.community = community) ↔
      community ≠ a.label node ∧
        ∃ target ∈ network.targets node, target ≠ node ∧ a.label target = community
  gains : ∀ candidate ∈ considered network a network.weightedDegrees total node,
    candidate.score - (staying network a network.weightedDegrees total node).score =
      total / 2 * (movedModularity network a total node candidate.community -
        Modularity.modularity network a.communities network.weightedDegrees total)
  leaves : preferredCommunity network a network.weightedDegrees total node ≠ a.label node →
    Modularity.modularity network a.communities network.weightedDegrees total <
      movedModularity network a total node
        (preferredCommunity network a network.weightedDegrees total node)
  stays : preferredCommunity network a network.weightedDegrees total node = a.label node →
    ∀ target ∈ network.targets node, movedModularity network a total node (a.label target) ≤
      Modularity.modularity network a.communities network.weightedDegrees total

theorem consideredNear (community : Nat) :
    (∃ candidate ∈ considered network a network.weightedDegrees total node,
      candidate.community = community) ↔
      community ≠ a.label node ∧
        ∃ target ∈ network.targets node, target ≠ node ∧ a.label target = community := by
  constructor
  · rintro ⟨candidate, member, rfl⟩
    obtain ⟨other, some, -⟩ := memConsidered.mp member
    exact ⟨other, othersInSome.mp some⟩
  · rintro ⟨other, near⟩
    exact ⟨⟨community, score (othersIn a.label node (network.row node) community).sum
      (a.totals.getD community 0) (network.weightedDegrees.getD node 0 / total)⟩,
      memConsidered.mpr ⟨other, othersInSome.mpr near, rfl⟩, rfl⟩

/-- A node leaves its community only to raise the modularity, and stays only if no neighbour's community
would. -/
theorem scoresGuide (inside : network.Inside) (symmetric : network.SymmetricWeights)
    (positive : 0 < total) (consistent : Consistent network network.weightedDegrees a)
    (small : node < network.nodeCount) : Guided network a total node := by
  have rises : ∀ candidate ∈ considered network a network.weightedDegrees total node,
      (staying network a network.weightedDegrees total node).score < candidate.score ↔
        Modularity.modularity network a.communities network.weightedDegrees total <
          movedModularity network a total node candidate.community :=
    fun _ member => consistent.rises small inside symmetric positive member
  have cases := chooseCases (staying network a network.weightedDegrees total node)
    (considered network a network.weightedDegrees total node)
  rw [← preferredChooses positive] at cases
  refine ⟨preferredChooses positive, consideredNear,
    fun _ member => consistent.gain small inside symmetric positive member, fun moves => ?_,
    fun remains target there => ?_⟩
  · rcases cases with ⟨own, -⟩ | ⟨other, member, chosen, more⟩
    · exact absurd own moves
    · exact chosen ▸ (rises other member).mp more
  · rcases cases with ⟨-, least⟩ | ⟨other, member, chosen, -⟩
    · by_cases own : a.label target = a.label node
      · rw [own, consistent.unmoved small]
      · have apart : target ≠ node := fun same => own (congrArg a.label same)
        have near : ∃ candidate ∈ considered network a network.weightedDegrees total node,
            candidate.community = a.label target :=
          (consideredNear (a.label target)).mpr ⟨own, target, there, apart, rfl⟩
        obtain ⟨candidate, member, same⟩ := near
        rw [← same]
        exact not_lt.mp ((rises candidate member).not.mp (not_lt.mpr (least candidate member)))
    · exact absurd (chosen.symm.trans remains) (memConsidered.mp member).1

def samplePairs : Assignment Rat := ⟨#[0, 0, 2, 2], #[12, 0, 7, 0]⟩

theorem sampleGuided : Network.sampleLine.SymmetricWeights ∧
    Consistent Network.sampleLine Network.sampleLine.weightedDegrees samplePairs ∧
    Guided Network.sampleLine samplePairs 19 1 ∧
    preferredCommunity Network.sampleLine samplePairs Network.sampleLine.weightedDegrees 19 1 = 2 := by
  have mirrored : Network.sampleLine.Mirrored := Network.mirroredEdges (by decide)
  have symmetric : Network.sampleLine.SymmetricWeights :=
    Network.symmetricWithin mirrored.inside (by decide +kernel)
  have consistent : Consistent Network.sampleLine Network.sampleLine.weightedDegrees samplePairs :=
    ⟨rfl, by decide, rfl, by decide +kernel⟩
  exact ⟨symmetric, consistent,
    scoresGuide mirrored.inside symmetric (by decide +kernel) consistent (by decide),
    by decide +kernel⟩

end Gain
end LocalMoving
end CommunityGraph
