import CommunityGraph.Proofs.DisjointSet.Operations

/-! How far nodes are from their roots. A set with a path of some length has doubled in size with each of its
links, and no search for a root makes a path longer, however far it has got. -/
namespace CommunityGraph.DisjointSet

structure Shallow (n : Nat) (d : DisjointSet) : Prop where
  height : ∀ node < n, ∃ steps, Leads d.parent node steps (d.find node).1 ∧
    2 ^ steps ≤ (d.setSize node).1
  sized : ∀ node < n,
    (d.setSize node).1 = Set.ncard {other | other < n ∧ (d.find other).1 = (d.find node).1}
  found : ∀ start, Shortens d.parent (d.find start).2.parent
  turned : ∀ start turns, Shortens d.parent (above (climb turns d.parents start).2)

theorem findShortens (d : DisjointSet) (start : Nat) : Shortens d.parent (d.find start).2.parent :=
  climbShortens d.parents.size d.parents start

section Represents
variable {n : Nat} {root : Nat → Nat} {d : DisjointSet}

theorem Represents.members (represents : Represents n root d) {node : Nat} (inside : node < n) :
    Set.ncard {other | other < n ∧ (d.find other).1 = (d.find node).1} =
      classSize n root (root node) := by
  have members : {other | other < n ∧ (d.find other).1 = (d.find node).1} =
      ((Finset.range n).filter fun other => root other = root node : Finset Nat) := by
    ext other
    simp only [Finset.coe_filter, Finset.mem_range, Set.mem_ofPred_eq]
    refine and_congr_right fun small => ?_
    rw [(represents.find small).1, (represents.find inside).1]
  rw [members, Set.ncard_coe_finset, classSize, countCard]

theorem Represents.shallow (represents : Represents n root d) : Shallow n d where
  height node inside := by
    obtain ⟨steps, leads, short⟩ := represents.leads node inside
    refine ⟨steps, ?_, ?_⟩
    · rw [(represents.find inside).1]
      exact leads
    · rwa [(represents.setSize inside).1]
  sized node inside := by rw [(represents.setSize inside).1, represents.members inside]
  found start := findShortens d start
  turned start turns := climbShortens turns d.parents start

end Represents

theorem treesShallow (n : Nat) (operations : List Operation)
    (inside : ∀ operation ∈ operations, ∀ node ∈ operation.nodes, node < n) :
    Shallow n ((make n).performAll operations).2 :=
  ((makeRepresents n).performAll inside).1.shallow

def sampleLinks : List Operation :=
  [.union 6 7, .union 4 5, .union 2 3, .union 0 1, .union 4 6, .union 0 2, .union 0 4]

theorem sampleShallow :
    (∀ operation ∈ sampleLinks, ∀ node ∈ operation.nodes, node < 8) ∧
    ((make 8).performAll sampleLinks).2.parents = #[0, 0, 0, 2, 0, 4, 4, 6] ∧
    Shallow 8 ((make 8).performAll sampleLinks).2 := by
  have inside : ∀ operation ∈ sampleLinks, ∀ node ∈ operation.nodes, node < 8 := by decide
  exact ⟨inside, by cbv, treesShallow 8 sampleLinks inside⟩

end CommunityGraph.DisjointSet
