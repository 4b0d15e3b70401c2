import Mathlib
import CommunityGraph.Proofs.DisjointSet

/-! Disjoint sets under any sequence of calls. What has been united decides all answers: the questions
asked in between shorten paths and change nothing that can be asked. -/
namespace CommunityGraph.DisjointSet

inductive Operation where
  | union (a b : Nat)
  | find (node : Nat)
  | setIdOf (node : Nat)
  | sameSet (a b : Nat)
  | setSize (node : Nat)
  | setCount
  | communities
  | consecutiveIds
  deriving DecidableEq, Repr

inductive Answer where
  | merged (apart : Bool)
  | same (equal : Bool)
  | root (node : Nat)
  | amount (count : Nat)
  | labels (ids : List Nat)
  deriving DecidableEq, Repr

def Operation.nodes : Operation → List Nat
  | .union a b | .sameSet a b => [a, b]
  | .find node | .setIdOf node | .setSize node => [node]
  | .setCount | .communities | .consecutiveIds => []

def Operation.united : Operation → List (Nat × Nat)
  | .union a b => [(a, b)]
  | _ => []

def perform (d : DisjointSet) : Operation → Answer × DisjointSet
  | .union a b => (d.union a b).map .merged id
  | .find node => (d.find node).map .root id
  | .setIdOf node => (d.find node).map .root id
  | .sameSet a b => (d.sameSet a b).map .same id
  | .setSize node => (d.setSize node).map .amount id
  | .setCount => (.amount d.setCount, d)
  | .communities => d.communities.map .labels id
  | .consecutiveIds => d.consecutiveIds.map .labels id

def performAll (d : DisjointSet) : List Operation → List Answer × DisjointSet
  | [] => ([], d)
  | operation :: operations =>
      let (answer, d) := d.perform operation
      let (answers, d) := d.performAll operations
      (answer :: answers, d)

def united (operations : List Operation) : List (Nat × Nat) := operations.flatMap Operation.united

def merges (answers : List Answer) : Nat := answers.count (.merged true)

inductive Climbs : Array Nat → Nat → Nat → Array Nat → Prop where
  | top {parents : Array Nat} {node : Nat} (top : above parents node = node) :
      Climbs parents node node parents
  | turn {parents parents' : Array Nat} {node root : Nat} (below : above parents node ≠ node)
      (rest : Climbs (parents.setIfInBounds node (above parents (above parents node)))
        (above parents (above parents node)) root parents') :
      Climbs parents node root parents'

theorem climbClimbs (fuel : Nat) (parents : Array Nat) (node : Nat)
    (ended : above (climb fuel parents node).2 (climb fuel parents node).1 =
      (climb fuel parents node).1) :
    Climbs parents node (climb fuel parents node).1 (climb fuel parents node).2 := by
  induction fuel generalizing parents node with
  | zero => exact .top ended
  | succ fuel ih =>
    by_cases top : above parents node = node
    · rw [climbTop top]
      exact .top top
    · rw [climbTurn top] at ended ⊢
      exact .turn top (ih _ _ ended)

def Related (pairs : List (Nat × Nat)) : Nat → Nat → Prop :=
  Relation.EqvGen fun x y => (x, y) ∈ pairs

def leader (d : DisjointSet) (a b : Nat) : Nat :=
  if (d.setSize b).1 < (d.setSize a).1 then (d.find a).1
  else if (d.setSize a).1 < (d.setSize b).1 then (d.find b).1
  else min (d.find a).1 (d.find b).1

structure Closes (n : Nat) (pairs : List (Nat × Nat)) (merged : Nat) (d : DisjointSet) : Prop where
  ends : ∀ node < n, Climbs d.parents node (d.find node).1 (d.find node).2.parents
  tops : ∀ node < n, (d.find node).1 < n ∧ d.parent (d.find node).1 = (d.find node).1 ∧
    (d.find node).2.parent (d.find node).1 = (d.find node).1
  same : ∀ a < n, ∀ b < n, (d.sameSet a b).1 = true ↔ Related pairs a b
  sized : ∀ node < n, (d.setSize node).1 = Set.ncard {other | other < n ∧ Related pairs node other}
  whole : ∑ node ∈ (Finset.range n).filter (fun node => d.parent node = node), d.size node = n
  told : ∀ a < n, ∀ b < n, (d.union a b).1 = true ↔ ¬ Related pairs a b
  counted : merged ≤ n ∧ d.setCount = n - merged
  led : ∀ a < n, ∀ b < n, (d.union a b).1 = true → ∀ node < n,
    Related pairs a node ∨ Related pairs b node →
      ((d.union a b).2.find node).1 = d.leader a b

section Tops
variable {n : Nat} {root : Nat → Nat}

def tops (n : Nat) (root : Nat → Nat) : Finset Nat :=
  (Finset.range n).filter fun node => root node = node

theorem countCard (n : Nat) (p : Nat → Prop) [DecidablePred p] :
    (List.range n).countP (fun node => decide (p node)) = ((Finset.range n).filter p).card :=
  List.countP_eq_length_filter

theorem topsWhole (inside : ∀ node < n, root node < n)
    (rootRoot : ∀ node < n, root (root node) = root node) :
    ∑ top ∈ tops n root, classSize n root top = n := by
  have maps : Set.MapsTo root (Finset.range n) (tops n root) := by
    intro node member
    have small : node < n := by simpa using member
    simpa [tops] using ⟨inside node small, rootRoot node small⟩
  calc ∑ top ∈ tops n root, classSize n root top
      = ∑ top ∈ tops n root, ((Finset.range n).filter fun node => root node = top).card :=
        Finset.sum_congr rfl fun top _ => countCard n fun node => root node = top
    _ = (Finset.range n).card := (Finset.card_eq_sum_card_fiberwise maps).symm
    _ = n := Finset.card_range n

theorem topsRedirect {top child : Nat} (topRoot : root top = top) (childRoot : root child = child)
    (inside : child < n) (apart : top ≠ child) :
    (tops n (redirect root (top, child))).card + 1 = (tops n root).card := by
  have same : tops n (redirect root (top, child)) = (tops n root).erase child := by
    ext node
    simp only [tops, redirect, Finset.mem_filter, Finset.mem_range, Finset.mem_erase]
    grind
  rw [same, Finset.card_erase_add_one]
  simp [tops, inside, childRoot]

end Tops

section Represents
variable {n : Nat} {root : Nat → Nat} {d : DisjointSet}

theorem Represents.parentTop (represents : Represents n root d) {node : Nat} (inside : node < n) :
    d.parent node = node ↔ root node = node := by
  obtain ⟨steps, leads, -⟩ := represents.leads node inside
  constructor
  · exact fun top => (leads.unique (.here top)).2
  · intro top
    have := represents.rootTop inside
    rwa [top] at this

theorem Represents.parentTops (represents : Represents n root d) :
    (Finset.range n).filter (fun node => d.parent node = node) = tops n root :=
  Finset.filter_congr fun _ member => represents.parentTop (Finset.mem_range.mp member)

theorem Represents.setCount (represents : Represents n root d) :
    d.setCount = (tops n root).card := by
  have length : d.length = n := represents.nodes
  rw [DisjointSet.setCount, length, countCard, represents.parentTops]

theorem Represents.sameSet (represents : Represents n root d) {a b : Nat} (insideA : a < n)
    (insideB : b < n) :
    (d.sameSet a b).1 = decide (root a = root b) ∧ Represents n root (d.sameSet a b).2 := by
  obtain ⟨foundA, afterA⟩ := represents.find insideA
  obtain ⟨foundB, afterB⟩ := afterA.find insideB
  rw [← foundA, ← foundB]
  exact ⟨rfl, afterB⟩

theorem Represents.setSize (represents : Represents n root d) {node : Nat} (inside : node < n) :
    (d.setSize node).1 = classSize n root (root node) ∧ Represents n root (d.setSize node).2 := by
  obtain ⟨found, after⟩ := represents.find inside
  rw [← after.sizes node inside, ← found]
  exact ⟨rfl, after⟩

theorem Represents.topsJoined (represents : Represents n root d) {a b : Nat} (insideA : a < n)
    (insideB : b < n) (apart : root a ≠ root b) :
    (tops n (joined n root (a, b))).card + 1 = (tops n root).card := by
  rw [joined]
  rcases heirsCases (classSize n root) (root a) (root b) with pair | pair <;> rw [pair]
  · exact topsRedirect (represents.rootRoot insideA) (represents.rootRoot insideB)
      (represents.inside b insideB) apart
  · exact topsRedirect (represents.rootRoot insideB) (represents.rootRoot insideA)
      (represents.inside a insideA) apart.symm

theorem Represents.perform (represents : Represents n root d) {operation : Operation}
    (inside : ∀ node ∈ operation.nodes, node < n) :
    Represents n (operation.united.foldl (joined n) root) (d.perform operation).2 ∧
      (tops n (operation.united.foldl (joined n) root)).card +
        (if (d.perform operation).1 = .merged true then 1 else 0) = (tops n root).card := by
  cases operation with
  | union a b =>
    have insideA : a < n := inside a (by simp [Operation.nodes])
    have insideB : b < n := inside b (by simp [Operation.nodes])
    obtain ⟨told, after⟩ := represents.union insideA insideB
    refine ⟨after, ?_⟩
    by_cases same : root a = root b
    · simp [DisjointSet.perform, Operation.united, told, same, joinedSelf same]
    · simpa [DisjointSet.perform, Operation.united, told, same] using
        represents.topsJoined insideA insideB same
  | find node | setIdOf node =>
    exact ⟨(represents.find (inside node (by simp [Operation.nodes]))).2, rfl⟩
  | sameSet a b =>
    exact ⟨(represents.sameSet (inside a (by simp [Operation.nodes]))
      (inside b (by simp [Operation.nodes]))).2, rfl⟩
  | setSize node => exact ⟨(represents.setSize (inside node (by simp [Operation.nodes]))).2, rfl⟩
  | setCount => exact ⟨represents, rfl⟩
  | communities | consecutiveIds => exact ⟨represents.communities.2, rfl⟩

theorem Represents.performAll {operations : List Operation} (represents : Represents n root d)
    (inside : ∀ operation ∈ operations, ∀ node ∈ operation.nodes, node < n) :
    Represents n ((united operations).foldl (joined n) root) (d.performAll operations).2 ∧
      (tops n ((united operations).foldl (joined n) root)).card +
        merges (d.performAll operations).1 = (tops n root).card := by
  induction operations generalizing root d with
  | nil => exact ⟨represents, rfl⟩
  | cons operation operations ih =>
    obtain ⟨next, here⟩ := represents.perform (inside operation (by simp))
    obtain ⟨last, rest⟩ := ih next fun other member => inside other (List.mem_cons_of_mem _ member)
    have pairs : united (operation :: operations) = operation.united ++ united operations := rfl
    rw [pairs, List.foldl_append]
    refine ⟨last, ?_⟩
    have answers : merges (d.performAll (operation :: operations)).1 =
        merges ((d.perform operation).2.performAll operations).1 +
          if (d.perform operation).1 = .merged true then 1 else 0 := by
      simp only [merges, DisjointSet.performAll, List.count_cons, beq_iff_eq]
    omega

end Represents

section Closure
variable {n : Nat} {d : DisjointSet} {pairs : List (Nat × Nat)}

theorem unitedRelated (n : Nat) (pairs : List (Nat × Nat)) (x y : Nat) :
    pairs.foldl (joined n) id x = pairs.foldl (joined n) id y ↔ Related pairs x y := by
  rw [unionsSame]
  constructor
  · refine eqvGenLift fun x y step => ?_
    rcases step with same | member
    · obtain rfl : x = y := same
      exact .refl _
    · exact .rel _ _ member
  · exact eqvGenLift fun x y member => .rel _ _ (.inr member)

theorem Represents.leader {root : Nat → Nat} (represents : Represents n root d) {a b : Nat}
    (insideA : a < n) (insideB : b < n) :
    d.leader a b = (heirs (classSize n root) (root a) (root b)).1 := by
  rw [DisjointSet.leader, (represents.setSize insideA).1, (represents.setSize insideB).1,
    (represents.find insideA).1, (represents.find insideB).1]
  simp only [heirs, apply_ite Prod.fst]

theorem Represents.closes {merged : Nat} (represents : Represents n (pairs.foldl (joined n) id) d)
    (counted : (tops n (pairs.foldl (joined n) id)).card + merged = n) :
    Closes n pairs merged d := by
  have related := unitedRelated n pairs
  generalize pairs.foldl (joined n) id = root at represents counted related
  refine ⟨fun node inside => ?_, fun node inside => ?_, fun a insideA b insideB => ?_,
    fun node inside => ?_, ?_, fun a insideA b insideB => ?_, ?_,
    fun a insideA b insideB apart node inside near => ?_⟩
  · obtain ⟨found, after⟩ := represents.find inside
    have top := after.rootTop inside
    rw [← found] at top
    exact climbClimbs _ _ _ top
  · obtain ⟨found, after⟩ := represents.find inside
    rw [found]
    exact ⟨represents.inside node inside, represents.rootTop inside, after.rootTop inside⟩
  · rw [(represents.sameSet insideA insideB).1, decide_eq_true_iff, related]
  · have class' : {other | other < n ∧ Related pairs node other} =
        ((Finset.range n).filter fun other => root other = root node : Finset Nat) := by
      ext other
      simp [← related, eq_comm]
    rw [(represents.setSize inside).1, classSize, countCard, class', Set.ncard_coe_finset]
  · have sizes : ∀ top ∈ tops n root, d.size top = classSize n root top := by
      intro top member
      obtain ⟨inside, fixed⟩ := Finset.mem_filter.mp member
      have := represents.sizes top (Finset.mem_range.mp inside)
      rwa [fixed] at this
    rw [represents.parentTops, Finset.sum_congr rfl sizes]
    exact topsWhole represents.inside fun node inside => represents.rootRoot inside
  · rw [(represents.union insideA insideB).1, decide_eq_true_iff, Ne, related]
  · rw [represents.setCount]
    omega
  · obtain ⟨told, after⟩ := represents.union insideA insideB
    rw [(after.find inside).1, represents.leader insideA insideB, joined, redirect]
    have sides : root node = root a ∨ root node = root b :=
      near.imp (fun near => ((related _ _).mpr near).symm) fun near => ((related _ _).mpr near).symm
    rcases heirsCases (classSize n root) (root a) (root b) with pair | pair <;> rw [pair] <;>
      rcases sides with side | side <;> simp [side]

/-- Whatever is called, in whatever order, the sets are the classes of what has been united. -/
theorem unitedClosed (n : Nat) (operations : List Operation)
    (inside : ∀ operation ∈ operations, ∀ node ∈ operation.nodes, node < n) :
    Closes n (united operations) (merges ((make n).performAll operations).1)
      ((make n).performAll operations).2 := by
  obtain ⟨represents, counted⟩ := (makeRepresents n).performAll inside
  refine represents.closes (counted.trans ?_)
  simp [tops]

def sampleCalls : List Operation :=
  [.union 3 1, .find 3, .sameSet 1 4, .union 4 3, .setSize 4, .union 1 4, .setCount, .communities]

theorem sampleClosed :
    (∀ operation ∈ sampleCalls, ∀ node ∈ operation.nodes, node < 5) ∧
    ((make 5).performAll sampleCalls).1 =
      [.merged true, .root 1, .same false, .merged true, .amount 3, .merged false, .amount 3,
        .labels [0, 1, 2, 1, 1]] ∧
    Closes 5 [(3, 1), (4, 3), (1, 4)] 2 ((make 5).performAll sampleCalls).2 := by
  have answers : ((make 5).performAll sampleCalls).1 =
      [.merged true, .root 1, .same false, .merged true, .amount 3, .merged false, .amount 3,
        .labels [0, 1, 2, 1, 1]] := by
    cbv
  have closed := unitedClosed 5 sampleCalls (by decide)
  rw [answers] at closed
  exact ⟨by decide, answers, closed⟩

end Closure
end CommunityGraph.DisjointSet
