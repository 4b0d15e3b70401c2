import Mathlib
import CommunityGraph.Modularity
import CommunityGraph.Proofs.Graph.Reading
import CommunityGraph.Proofs.Numbering

/-! Modularity over the rationals, as sums over the entries of a network: what it says depends only on
which nodes are together, and is the same before and after they are collapsed. -/
namespace CommunityGraph

section Sums

theorem accumulateSum (values : List Rat) : Weight.accumulate values = values.sum := by
  have shifted : ∀ start : Rat, values.foldl (· + ·) start = start + values.sum := by
    induction values with
    | nil => simp
    | cons value values ih =>
      intro start
      rw [List.foldl_cons, ih, List.sum_cons, add_assoc]
  exact (shifted 0).trans (zero_add _)

theorem weightSum (values : List Rat) : Weight.sum values = values.sum := accumulateSum values

theorem halvesSum (values : List Rat) : Modularity.halvedSum values = values.sum := by
  unfold Modularity.halvedSum
  split
  · exact weightSum values
  · dsimp only
    rw [weightSum, weightSum]
    exact List.sum_take_add_sum_drop values _

theorem rangeSum (n : Nat) (f : Nat → Rat) :
    ((List.range n).map f).sum = ∑ node ∈ Finset.range n, f node := rfl

theorem sumByKey {β : Type} {count : Nat} (key : β → Nat) (value : β → Rat) {entries : List β}
    (inside : ∀ entry ∈ entries, key entry < count) :
    (entries.map value).sum = ∑ number ∈ Finset.range count,
      ((entries.filter fun entry => key entry = number).map value).sum := by
  induction entries with
  | nil => simp
  | cons entry entries ih =>
    have here : ∀ number, (((entry :: entries).filter fun entry => key entry = number).map value).sum =
        (if key entry = number then value entry else 0) +
          ((entries.filter fun entry => key entry = number).map value).sum := by
      intro number
      by_cases same : key entry = number <;> simp [same]
    rw [List.map_cons, List.sum_cons, ih fun other member => inside other (List.mem_cons_of_mem _ member)]
    simp only [here, Finset.sum_add_distrib, Finset.sum_ite_eq, Finset.mem_range,
      inside entry (by simp), if_true]

theorem filterSum {β : Type} (keep : β → Bool) (value : β → Rat) (entries : List β) :
    ((entries.filter keep).map value).sum =
      (entries.map fun entry => if keep entry then value entry else 0).sum := by
  induction entries with
  | nil => rfl
  | cons entry entries ih => by_cases kept : keep entry <;> simp [kept, ih]

theorem factorSum {β : Type} {factor : β → Rat} {common : Rat} {entries : List β}
    (same : ∀ entry ∈ entries, factor entry = common) (value : β → Rat) :
    (entries.map fun entry => factor entry * value entry).sum =
      common * (entries.map value).sum := by
  rw [← List.sum_map_mul_left]
  exact congrArg List.sum (List.map_congr_left fun entry member => by rw [same entry member])

end Sums

namespace Network
variable {network : Network Rat}

def pairSum (network : Network Rat) (f : Nat → Nat → Rat) : Rat :=
  ∑ node ∈ Finset.range network.nodeCount,
    ((network.row node).map fun entry => f node entry.1 * entry.2).sum

def together (label : Nat → Nat) (u v : Nat) : Rat := if label u = label v then 1 else 0

theorem pairSumCongr {f f' : Nat → Nat → Rat} (inside : network.Inside)
    (same : ∀ u < network.nodeCount, ∀ v < network.nodeCount, f u v = f' u v) :
    network.pairSum f = network.pairSum f' := by
  refine Finset.sum_congr rfl fun u hu => ?_
  refine congrArg List.sum (List.map_congr_left fun entry member => ?_)
  rw [same u (Finset.mem_range.mp hu) entry.1 (inside u entry.1 (List.mem_map_of_mem member))]

theorem togetherComm (label : Nat → Nat) (u v : Nat) : together label u v = together label v u :=
  if_congr eq_comm rfl rfl

theorem togetherCongr {label label' : Nat → Nat} {u v : Nat}
    (same : label u = label v ↔ label' u = label' v) :
    together label u v = together label' u v :=
  if_congr same rfl rfl

theorem pairSumAdd (f f' : Nat → Nat → Rat) :
    network.pairSum (fun u v => f u v + f' u v) = network.pairSum f + network.pairSum f' := by
  simp only [pairSum, add_mul, List.sum_map_add, Finset.sum_add_distrib]

theorem betweenSum (u v : Nat) :
    network.pairSum (fun a b => if a = u ∧ b = v then 1 else 0) = (network.between u v).sum := by
  have entries : ∀ node, ((network.row node).map fun entry =>
      (if node = u ∧ entry.1 = v then 1 else 0) * entry.2).sum =
      if node = u then (network.between u v).sum else 0 := by
    intro node
    by_cases here : node = u
    · subst here
      rw [between, filterSum]
      simp
    · simp [here]
  simp only [pairSum, entries, Finset.sum_ite_eq', Finset.mem_range]
  split
  · rfl
  · rename_i outside
    rw [between, rowOutside (Nat.not_lt.mp outside)]
    rfl

theorem rowSum (inside : network.Inside) (node : Nat) (f : Nat → Rat) :
    ((network.row node).map fun entry => f entry.1 * entry.2).sum =
      ∑ target ∈ Finset.range network.nodeCount, f target * (network.between node target).sum := by
  have targets : ∀ entry ∈ network.row node, entry.1 < network.nodeCount := fun entry member =>
    inside node entry.1 (List.mem_map_of_mem member)
  rw [sumByKey Prod.fst _ targets]
  refine Finset.sum_congr rfl fun target _ => ?_
  have same : ∀ entry ∈ (network.row node).filter fun entry => entry.1 = target,
      f entry.1 = f target := by
    intro entry there
    rw [of_decide_eq_true (List.mem_filter.mp there).2]
  rw [factorSum same, between]

theorem pairSumBetween (inside : network.Inside) (f : Nat → Nat → Rat) :
    network.pairSum f = ∑ u ∈ Finset.range network.nodeCount,
      ∑ v ∈ Finset.range network.nodeCount, f u v * (network.between u v).sum :=
  Finset.sum_congr rfl fun u _ => rowSum inside u (f u)

def SymmetricWeights (network : Network Rat) : Prop :=
  ∀ u v, (network.between u v).sum = (network.between v u).sum

theorem symmetricWithin (inside : network.Inside)
    (alike : ∀ u < network.nodeCount, ∀ v < network.nodeCount,
      (network.between u v).sum = (network.between v u).sum) : network.SymmetricWeights := by
  intro u v
  by_cases within : u < network.nodeCount ∧ v < network.nodeCount
  · exact alike u within.1 v within.2
  · rw [betweenOutside inside within, betweenOutside inside fun turned => within turned.symm]

theorem pairSumSwap (inside : network.Inside) (symmetric : network.SymmetricWeights)
    (f : Nat → Nat → Rat) : network.pairSum f = network.pairSum fun u v => f v u := by
  rw [pairSumBetween inside, pairSumBetween inside, Finset.sum_comm]
  refine Finset.sum_congr rfl fun v _ => Finset.sum_congr rfl fun u _ => ?_
  rw [symmetric u v]

theorem pairSumDegrees (f : Nat → Rat) : network.pairSum (fun u _ => f u) =
    ∑ u ∈ Finset.range network.nodeCount, f u * network.weightedDegree u := by
  refine Finset.sum_congr rfl fun u _ => ?_
  rw [weightedDegree, accumulateSum, List.sum_map_mul_left]

theorem degreeSum (node : Nat) :
    network.pairSum (fun u _ => if u = node then 1 else 0) = network.weightedDegree node := by
  simp only [pairSumDegrees, ite_mul, one_mul, zero_mul, Finset.sum_ite_eq', Finset.mem_range]
  split
  · rfl
  · rename_i outside
    rw [weightedDegree, rowOutside (Nat.not_lt.mp outside)]
    rfl

theorem degreesList : network.weightedDegrees.toList =
    (List.range network.nodeCount).map network.weightedDegree := by
  refine List.ext_getElem (by simp [weightedDegrees, nodeCount]) fun node here there => ?_
  have small : node < network.rows.size := by simpa [weightedDegrees] using here
  simp [weightedDegrees, weightedDegree, row, small]

theorem degreesGet {node : Nat} (small : node < network.nodeCount) :
    network.weightedDegrees.getD node Weight.zero = network.weightedDegree node := by
  have there : node < network.rows.size := small
  simp [weightedDegrees, weightedDegree, row, there]

end Network

namespace Modularity
variable {network : Network Rat} {labels : Array Nat}

/-- The modularity of a division of the nodes: the share of the weight between nodes that are together,
less the share that the degrees alone would put there. -/
def quality (network : Network Rat) (label : Nat → Nat) (total : Rat) : Rat :=
  if total ≤ 0 then 0
  else network.pairSum (Network.together label) / total -
    network.pairSum (fun u _ => network.pairSum fun v _ => Network.together label u v) /
      (total * total)

theorem qualityCongr {label label' : Nat → Nat} (inside : network.Inside)
    (same : ∀ u < network.nodeCount, ∀ v < network.nodeCount,
      label u = label v ↔ label' u = label' v) (total : Rat) :
    quality network label total = quality network label' total := by
  have alike : ∀ u < network.nodeCount, ∀ v < network.nodeCount,
      Network.together label u v = Network.together label' u v := fun u hu v hv =>
    Network.togetherCongr (same u hu v hv)
  have inner := Network.pairSumCongr inside alike
  have outer : network.pairSum (fun u _ => network.pairSum fun v _ => Network.together label u v) =
      network.pairSum fun u _ => network.pairSum fun v _ => Network.together label' u v :=
    Network.pairSumCongr inside fun u hu _ _ =>
      Network.pairSumCongr inside fun v hv _ _ => alike u hu v hv
  rw [quality, quality, inner, outer]

theorem innerPairs (labels : Array Nat) :
    halvedSum ((List.range network.nodeCount).map (innerWeight network labels)) =
      network.pairSum (Network.together fun node => labels.getD node 0) := by
  rw [halvesSum, rangeSum]
  refine Finset.sum_congr rfl fun u _ => ?_
  rw [innerWeight, accumulateSum, filterSum]
  refine congrArg List.sum (List.map_congr_left fun entry _ => ?_)
  simp [Network.together, eq_comm]

theorem addTotalsGet (degrees : Array Rat) (position : Nat) (labels : List Nat)
    (totals : Array Rat) (label : Nat) :
    (addTotals degrees position labels totals)[label]? = totals[label]?.map fun total =>
      total + ((membersOf labels label).map fun node =>
        degrees.getD (position + node) Weight.zero).sum := by
  induction labels generalizing position totals with
  | nil => simp [addTotals, membersOf]
  | cons first labels ih =>
    have tail : ((membersOf labels label).map (· + 1)).map
        (fun node => degrees.getD (position + node) Weight.zero) =
        (membersOf labels label).map fun node => degrees.getD (position + 1 + node) Weight.zero := by
      rw [List.map_map]
      refine List.map_congr_left fun node _ => ?_
      rw [Function.comp_apply, Nat.add_comm node 1, Nat.add_assoc]
    rw [addTotals, ih, Array.getElem?_modify, membersCons, List.map_append, tail, List.sum_append]
    by_cases here : first = label
    · simp [here, Function.comp_def, add_assoc]
    · simp [here]

def labelTotal (n : Nat) (label : Nat → Nat) (degree : Nat → Rat) (number : Nat) : Rat :=
  ∑ node ∈ Finset.range n, if label node = number then degree node else 0

theorem labelTotalMoved {n node : Nat} (small : node < n) (label : Nat → Nat) (degree : Nat → Rat)
    (goal number : Nat) :
    labelTotal n (Function.update label node goal) degree number =
      labelTotal n label degree number - (if label node = number then degree node else 0) +
        (if goal = number then degree node else 0) := by
  have member := Finset.mem_range.mpr small
  have others : ∀ u ∈ (Finset.range n).erase node,
      (if Function.update label node goal u = number then degree u else 0) =
        if label u = number then degree u else 0 := by
    intro u there
    rw [Function.update_of_ne (Finset.ne_of_mem_erase there)]
  rw [labelTotal, labelTotal, ← Finset.add_sum_erase _ _ member, ← Finset.add_sum_erase _ _ member,
    Finset.sum_congr rfl others, Function.update_self]
  ring

theorem communityTotalsSum {degrees : Array Rat} {label : Nat → Nat} {degree : Nat → Rat}
    (labelled : ∀ node < labels.size, labels.toList[node]? = some (label node))
    (degreed : ∀ node < labels.size, degrees.getD node Weight.zero = degree node) :
    (communityTotals labels degrees).toList =
      (List.range labels.size).map (labelTotal labels.size label degree) := by
  apply List.ext_getElem?
  intro number
  have got := addTotalsGet degrees 0 labels.toList (Array.replicate labels.size Weight.zero) number
  rw [communityTotals, Array.getElem?_toList, got, List.getElem?_map]
  by_cases small : number < labels.size
  · have members : ((membersOf labels.toList number).map fun node =>
        degrees.getD (0 + node) Weight.zero).sum = labelTotal labels.size label degree number := by
      rw [membersOf, filterSum, Array.length_toList, labelTotal, ← rangeSum]
      refine congrArg List.sum (List.map_congr_left fun node member => ?_)
      have inside := List.mem_range.mp member
      simp only [labelled node inside, degreed node inside, Nat.zero_add, Option.some.injEq,
        decide_eq_true_eq]
    rw [members]
    simp [small, Weight.zero]
  · simp [small]

theorem labelTotalSquares {n : Nat} {label : Nat → Nat} (inside : ∀ node < n, label node < n)
    (degree : Nat → Rat) :
    ∑ number ∈ Finset.range n, labelTotal n label degree number * labelTotal n label degree number =
      ∑ u ∈ Finset.range n,
        (∑ v ∈ Finset.range n, Network.together label u v * degree v) * degree u := by
  have spread : ∀ number, labelTotal n label degree number * labelTotal n label degree number =
      ∑ u ∈ Finset.range n,
        if label u = number then labelTotal n label degree number * degree u else 0 := by
    intro number
    nth_rewrite 2 [labelTotal]
    rw [Finset.mul_sum]
    exact Finset.sum_congr rfl fun u _ => by rw [mul_ite, mul_zero]
  simp only [spread]
  rw [Finset.sum_comm]
  refine Finset.sum_congr rfl fun u hu => ?_
  rw [Finset.sum_ite_eq, if_pos (Finset.mem_range.mpr (inside u (Finset.mem_range.mp hu))), labelTotal]
  congr 1
  refine Finset.sum_congr rfl fun v _ => ?_
  simp [Network.together, eq_comm]

theorem modularityQuality (size : labels.size = network.nodeCount)
    (inside : ∀ node < network.nodeCount, labels.getD node 0 < network.nodeCount) (total : Rat) :
    modularity network labels network.weightedDegrees total =
      quality network (fun node => labels.getD node 0) total := by
  have labelled : ∀ node < labels.size, labels.toList[node]? = some (labels.getD node 0) := by
    intro node small
    simp [small]
  have degreed : ∀ node < labels.size,
      network.weightedDegrees.getD node Weight.zero = network.weightedDegree node :=
    fun node small => Network.degreesGet (size ▸ small)
  have squares := labelTotalSquares inside network.weightedDegree
  have expected : Weight.sum ((communityTotals labels network.weightedDegrees).toList.map
      fun part => (part / total) * (part / total)) =
      network.pairSum (fun u _ => network.pairSum fun v _ =>
        Network.together (fun node => labels.getD node 0) u v) / (total * total) := by
    rw [weightSum, communityTotalsSum labelled degreed, List.map_map, size, rangeSum]
    simp only [Function.comp_apply, Network.pairSumDegrees, ← squares, div_mul_div_comm,
      Finset.sum_div]
  rw [modularity, quality]
  refine if_congr decide_eq_true_iff rfl ?_
  dsimp only
  rw [expected, innerPairs]

end Modularity
end CommunityGraph
