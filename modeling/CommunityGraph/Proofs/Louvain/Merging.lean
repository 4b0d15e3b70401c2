import Mathlib
import CommunityGraph.Louvain
import CommunityGraph.Proofs.DisjointSet
import CommunityGraph.Proofs.Numbering

/-! Communities of a level become sets of input nodes: the input node that stands for a member is united
with the one that stands for the first member. -/
namespace CommunityGraph.Louvain
open DisjointSet
variable {n count : Nat} {representatives : Array Nat} {dense : List Nat} {place root : Nat → Nat}
  {sets : DisjointSet}

section Anchors

theorem anchorsFromGet (representatives : Array Nat) (position : Nat) (dense : List Nat)
    (anchors : Array (Option Nat)) (number : Nat) :
    (anchorsFrom representatives position dense anchors)[number]? =
      anchors[number]?.map fun anchor => anchor.or
        (if number ∈ dense then some (representatives.getD (position + dense.idxOf number) 0)
          else none) := by
  induction dense generalizing position anchors with
  | nil => simp [anchorsFrom]
  | cons first dense ih =>
    rw [anchorsFrom, ih, Array.getElem?_modify]
    by_cases here : first = number
    · subst here
      cases anchors[first]? with
      | none => simp
      | some anchor => cases anchor <;> simp
    · have place : position + 1 + dense.idxOf number = position + (first :: dense).idxOf number := by
        rw [List.idxOf_cons_ne _ here]
        omega
      simp [here, Ne.symm here, place]

theorem anchorsSize (representatives : Array Nat) (dense : List Nat) (count : Nat) :
    (anchors representatives dense count).size = count := by
  have same : ∀ (position : Nat) (dense : List Nat) (anchors : Array (Option Nat)),
      (anchorsFrom representatives position dense anchors).size = anchors.size := by
    intro position dense anchors
    induction dense generalizing position anchors with
    | nil => rfl
    | cons first dense ih => rw [anchorsFrom, ih, Array.size_modify]
  simp [anchors, same]

theorem anchorsGet {number : Nat} (small : number < count) (member : number ∈ dense) :
    (anchors representatives dense count).getD number 0 =
      representatives.getD (dense.idxOf number) 0 := by
  have got := anchorsFromGet representatives 0 dense (Array.replicate count none) number
  simp [anchors, Array.getD_eq_getD_getElem?, got, small, member]

end Anchors

section Kernel
variable {pairs : List (Nat × Nat)} {goal : Nat → Nat}

theorem unionsRespect (within : Within n pairs)
    (kept : ∀ u < n, ∀ v < n, root u = root v → goal u = goal v)
    (paired : ∀ pair ∈ pairs, goal pair.1 = goal pair.2) :
    ∀ u < n, ∀ v < n, pairs.foldl (joined n) root u = pairs.foldl (joined n) root v →
      goal u = goal v := by
  induction pairs generalizing root with
  | nil => exact kept
  | cons pair pairs ih =>
    obtain ⟨a, b⟩ := pair
    obtain ⟨hA, hB⟩ := within (a, b) (by simp)
    have equal := paired (a, b) (by simp)
    refine ih (fun pair member => within pair (List.mem_cons_of_mem _ member)) ?_
      fun pair member => paired pair (List.mem_cons_of_mem _ member)
    intro u hu v hv same
    rcases (joinedSame a b u v).mp same with same | ⟨left, right⟩ | ⟨left, right⟩
    · exact kept u hu v hv same
    · exact (kept u hu a hA left).trans (equal.trans (kept v hv b hB right).symm)
    · exact (kept u hu b hB left).trans (equal.symm.trans (kept v hv a hA right).symm)

theorem unionsKeep (pairs : List (Nat × Nat)) {u v : Nat} (same : root u = root v) :
    pairs.foldl (joined n) root u = pairs.foldl (joined n) root v :=
  (unionsSame pairs u v).mpr (.rel _ _ (.inl same))

theorem unionsPair {u v : Nat} (member : (u, v) ∈ pairs) :
    pairs.foldl (joined n) root u = pairs.foldl (joined n) root v :=
  (unionsSame pairs u v).mpr (.rel _ _ (.inr member))

end Kernel

section Merge

structure Stands (n nodeCount : Nat) (place : Nat → Nat) (representatives : Array Nat) : Prop where
  places : ∀ node < n, place node < nodeCount
  size : representatives.size = nodeCount
  inside : ∀ node < nodeCount, representatives.getD node 0 < n
  back : ∀ node < nodeCount, place (representatives.getD node 0) = node

theorem singletonsStand (n : Nat) : Stands n n id (Array.range n) where
  places _ small := small
  size := by simp
  inside node small := by simp [small]
  back node small := by simp [small]

def numberOf (dense : List Nat) (node : Nat) : Nat := dense.toArray.getD node 0

structure Numbers (nodeCount count : Nat) (dense : List Nat) : Prop where
  length : dense.length = nodeCount
  small : ∀ node < nodeCount, numberOf dense node < count
  covered : ∀ number < count, number ∈ dense

theorem numberGet {node : Nat} (small : node < dense.length) :
    dense[node]? = some (numberOf dense node) := by
  simp [numberOf, small]

variable {nodeCount : Nat}

theorem renumberNumbers (labels : List Nat) :
    Numbers labels.length (labelBound (renumber labels)) (renumber labels) where
  length := renumberLength labels
  small node small := by
    have found := numberGet (by rwa [renumberLength] : node < (renumber labels).length)
    exact ltLabelBound (List.mem_of_getElem? found)
  covered _ small := (renumberNumbered labels).covers small

theorem Numbers.first (numbers : Numbers nodeCount count dense) {number : Nat}
    (small : number < count) :
    dense.idxOf number < nodeCount ∧ numberOf dense (dense.idxOf number) = number := by
  have inside := List.idxOf_lt_length_iff.mpr (numbers.covered number small)
  refine ⟨numbers.length ▸ inside, ?_⟩
  simp [numberOf, inside]

theorem Stands.distinct (stands : Stands n nodeCount place representatives)
    (kernel : ∀ u < n, ∀ v < n, root u = root v ↔ place u = place v) :
    distinct ((List.range n).map root) = nodeCount := by
  have whole : ((List.range n).map place).toFinset = Finset.range nodeCount := by
    ext number
    simp only [List.mem_toFinset, List.mem_map, List.mem_range, Finset.mem_range]
    constructor
    · rintro ⟨node, small, rfl⟩
      exact stands.places node small
    · exact fun small => ⟨_, stands.inside number small, stands.back number small⟩
  rw [(alikeRange kernel).distinct, CommunityGraph.distinct, whole, Finset.card_range]

theorem Stands.le (stands : Stands n nodeCount place representatives) : nodeCount ≤ n := by
  have small := distinctLe ((List.range n).map place)
  rw [stands.distinct fun _ _ _ _ => Iff.rfl] at small
  simpa using small

theorem Stands.anchored (stands : Stands n nodeCount place representatives)
    (numbers : Numbers nodeCount count dense) :
    Stands n count (fun node => numberOf dense (place node))
      (anchors representatives dense count) where
  places node small := numbers.small _ (stands.places node small)
  size := anchorsSize representatives dense count
  inside number small := by
    rw [anchorsGet small (numbers.covered number small)]
    exact stands.inside _ (numbers.first small).1
  back number small := by
    obtain ⟨inside, same⟩ := numbers.first small
    rw [anchorsGet small (numbers.covered number small), stands.back _ inside, same]

def mergedPairs (representatives : Array Nat) (dense : List Nat) (count : Nat) : List (Nat × Nat) :=
  representatives.toList.zip
    (dense.map fun number => (anchors representatives dense count).getD number 0)

theorem memMergedPairs (stands : Stands n nodeCount place representatives)
    (numbers : Numbers nodeCount count dense) {a b : Nat} :
    (a, b) ∈ mergedPairs representatives dense count ↔ ∃ node < nodeCount,
      a = representatives.getD node 0 ∧
        b = (anchors representatives dense count).getD (numberOf dense node) 0 := by
  have entry : ∀ node < nodeCount, (mergedPairs representatives dense count)[node]? =
      some (representatives.getD node 0,
        (anchors representatives dense count).getD (numberOf dense node) 0) := by
    intro node small
    have there : node < representatives.size := stands.size ▸ small
    have given := numberGet (numbers.length.symm ▸ small : node < dense.length)
    rw [mergedPairs, List.getElem?_zip_eq_some, List.getElem?_map, given]
    exact ⟨by simp [there], rfl⟩
  constructor
  · intro member
    obtain ⟨node, found⟩ := List.getElem?_of_mem member
    have inside := (List.getElem?_eq_some_iff.mp found).1
    have small : node < nodeCount := by
      simp only [mergedPairs, List.length_zip, Array.length_toList, stands.size] at inside
      omega
    have same := Option.some.inj ((entry node small).symm.trans found)
    exact ⟨node, small, (Prod.mk.inj same).1.symm, (Prod.mk.inj same).2.symm⟩
  · rintro ⟨node, small, rfl, rfl⟩
    exact List.mem_of_getElem? (entry node small)

theorem mergedWithin (stands : Stands n nodeCount place representatives)
    (numbers : Numbers nodeCount count dense) :
    Within n (mergedPairs representatives dense count) := by
  rintro ⟨a, b⟩ member
  obtain ⟨node, small, rfl, rfl⟩ := (memMergedPairs stands numbers).mp member
  exact ⟨stands.inside node small, (stands.anchored numbers).inside _ (numbers.small node small)⟩

def mergedRoot (n : Nat) (root : Nat → Nat) (representatives : Array Nat) (dense : List Nat)
    (count : Nat) : Nat → Nat :=
  (mergedPairs representatives dense count).foldl (joined n) root

theorem mergeRepresents (represents : Represents n root sets)
    (stands : Stands n nodeCount place representatives) (numbers : Numbers nodeCount count dense) :
    Represents n (mergedRoot n root representatives dense count)
      (merge representatives (anchors representatives dense count) dense sets) :=
  represents.unions (mergedWithin stands numbers)

theorem mergedSame (stands : Stands n nodeCount place representatives)
    (numbers : Numbers nodeCount count dense)
    (kernel : ∀ u < n, ∀ v < n, root u = root v ↔ place u = place v) :
    ∀ u < n, ∀ v < n, mergedRoot n root representatives dense count u =
        mergedRoot n root representatives dense count v ↔
      numberOf dense (place u) = numberOf dense (place v) := by
  have next := stands.anchored numbers
  intro u hu v hv
  constructor
  · have kept : ∀ u < n, ∀ v < n, root u = root v →
        numberOf dense (place u) = numberOf dense (place v) := fun u hu v hv same =>
      congrArg (numberOf dense) ((kernel u hu v hv).mp same)
    have paired : ∀ pair ∈ mergedPairs representatives dense count,
        numberOf dense (place pair.1) = numberOf dense (place pair.2) := by
      rintro ⟨a, b⟩ member
      obtain ⟨node, small, rfl, rfl⟩ := (memMergedPairs stands numbers).mp member
      rw [stands.back node small]
      exact (next.back _ (numbers.small node small)).symm
    exact unionsRespect (mergedWithin stands numbers) kept paired u hu v hv
  · intro same
    have anchored : ∀ w < n, mergedRoot n root representatives dense count w =
        mergedRoot n root representatives dense count
          ((anchors representatives dense count).getD (numberOf dense (place w)) 0) := by
      intro w hw
      have small := stands.places w hw
      have own : root w = root (representatives.getD (place w) 0) :=
        (kernel w hw _ (stands.inside _ small)).mpr (stands.back _ small).symm
      exact (unionsKeep _ own).trans
        (unionsPair ((memMergedPairs stands numbers).mpr ⟨_, small, rfl, rfl⟩))
    rw [anchored u hu, anchored v hv, same]

end Merge
end CommunityGraph.Louvain
