import CommunityGraph.Proofs.Graph.Reading

/-! Queries on a graph that a builder made. All of them tell of the same lists: a search that stops early
misses nothing, and going through the relationships of a node meets each with its own weight. -/
namespace CommunityGraph

theorem foundBeforeGreater {targets : List Nat} (ascending : targets.Pairwise (· ≤ ·)) (target : Nat) :
    ((targets.takeWhile fun t => t ≤ target).any fun t => t = target) = true ↔ target ∈ targets := by
  induction targets with
  | nil => simp
  | cons first targets ih =>
    obtain ⟨least, ascending⟩ := List.pairwise_cons.mp ascending
    by_cases below : first ≤ target
    · rw [List.takeWhile_cons_of_pos (by simpa using below), List.any_cons, Bool.or_eq_true,
        ih ascending, decide_eq_true_iff, List.mem_cons, eq_comm]
    · have absent : target ∉ first :: targets := by
        intro member
        rcases List.mem_cons.mp member with rfl | later
        · exact below (Nat.le_refl _)
        · exact below (least target later)
      rw [List.takeWhile_cons_of_neg (by simpa using below)]
      simp [absent]

namespace Graph
variable {α : Type} {g : Graph α} {node nodeCount : Nat} {layout : PropertyLayout}
  {links arrivals : List (Link α)}

theorem neighboursInside (small : node < g.nodeCount) : g.neighboursOrEmpty node = g.neighbours node := by
  simp [neighboursOrEmpty, hasVertex, small]

theorem neighboursOutside (outside : g.nodeCount ≤ node) : g.neighboursOrEmpty node = [] := by
  simp [neighboursOrEmpty, hasVertex, Nat.not_lt.mpr outside]

variable [Weight α]

theorem Tells.ascending (tells : Tells nodeCount layout links arrivals g) (node : Nat) :
    (g.neighboursOrEmpty node).Pairwise (· ≤ ·) := by
  by_cases small : node < nodeCount
  · rw [neighboursInside (tells.nodes ▸ small)]
    cases folds : layout.folds with
    | false => exact (tells.tells.kept folds node small).1
    | true => exact (tells.tells.folded folds node small).1.imp Nat.le_of_lt
  · rw [neighboursOutside (tells.nodes ▸ Nat.not_lt.mp small)]
    exact .nil

theorem Tells.neighbourInside (tells : Tells nodeCount layout links arrivals g) {target : Nat}
    (member : target ∈ g.neighboursOrEmpty node) : target < g.nodeCount := by
  by_cases small : node < nodeCount
  · rw [neighboursInside (tells.nodes ▸ small), ← tells.targets small] at member
    exact networkNodes g ▸ tells.networkInside node target member
  · rw [neighboursOutside (tells.nodes ▸ Nat.not_lt.mp small)] at member
    cases member

theorem Tells.hasEdge (tells : Tells nodeCount layout links arrivals g) (source target : Nat) :
    g.hasEdge source target = true ↔ target ∈ g.neighboursOrEmpty source := by
  by_cases small : source < g.nodeCount
  · have ascending := tells.ascending source
    rw [neighboursInside small] at ascending
    have inside : target ∈ g.neighbours source → target < g.nodeCount := fun member =>
      tells.neighbourInside (neighboursInside small ▸ member)
    rw [neighboursInside small, Graph.hasEdge, Bool.and_eq_true, foundBeforeGreater ascending]
    simp only [hasVertex, small, decide_true, Bool.true_and, decide_eq_true_eq]
    exact ⟨fun found => found.2, fun member => ⟨inside member, member⟩⟩
  · rw [neighboursOutside (Nat.not_lt.mp small)]
    simp [Graph.hasEdge, hasVertex, small]

theorem Tells.degreeRead (tells : Tells nodeCount layout links arrivals g) (small : node < g.nodeCount) :
    g.degree? node = some (g.neighboursOrEmpty node).length := by
  obtain ⟨targets, read, degree, -⟩ := tells.tells.readable node (tells.nodes ▸ small)
  rw [neighboursInside small, Graph.neighbours, AdjacencyList.targets, read, Option.getD_some]
  exact degree

theorem rowOutside (outside : g.nodeCount ≤ node) : g.row? node = none := by
  have none : g.adjacency.degrees[node]? = none := Array.getElem?_eq_none outside
  have unread : g.neighbours? node = .none := by
    simp only [Graph.neighbours?, AdjacencyList.targets?, AdjacencyList.cursor?, none]
  simp only [row?, unread]

structure Agrees (g : Graph α) : Prop where
  read : ∀ node < g.nodeCount, g.neighbours? node = some (g.neighboursOrEmpty node)
  outside : ∀ node, g.nodeCount ≤ node → g.neighboursOrEmpty node = []
  ascending : ∀ node, (g.neighboursOrEmpty node).Pairwise (· ≤ ·)
  inside : ∀ node, ∀ target ∈ g.neighboursOrEmpty node, target < g.nodeCount
  edges : ∀ source target, g.hasEdge source target = true ↔ target ∈ g.neighboursOrEmpty source
  all : g.adjacencies.map Prod.fst = g.vertexList ∧ ∀ node targets,
    (node, targets) ∈ g.adjacencies ↔ node < g.nodeCount ∧ targets = g.neighboursOrEmpty node
  visited : ∀ node < g.nodeCount, ∃ values,
    g.row? node = some ((g.neighboursOrEmpty node).zip values) ∧
      g.Weighs node (g.neighboursOrEmpty node).length values
  unvisited : ∀ node, g.nodeCount ≤ node → g.row? node = none
  degrees : ∀ node < g.nodeCount, g.degree? node = some (g.neighboursOrEmpty node).length
  count : (g.vertexList.map fun node => (g.degree? node).getD 0).sum = g.relationshipCount

theorem Tells.agrees (tells : Tells nodeCount layout links arrivals g) : Agrees g where
  read node small := by
    rw [neighboursInside small, tells.neighboursRead, if_pos (tells.nodes ▸ small)]
  outside _ := neighboursOutside
  ascending := tells.ascending
  inside _ _ := tells.neighbourInside
  edges := tells.hasEdge
  all := by
    refine ⟨?_, fun node targets => ?_⟩
    · rw [adjacencies, List.map_map]
      exact List.map_id _
    · simp only [adjacencies, vertexList, List.mem_map, List.mem_range, Prod.mk.injEq]
      constructor
      · rintro ⟨node, small, rfl, rfl⟩
        exact ⟨small, rfl⟩
      · rintro ⟨small, rfl⟩
        exact ⟨node, small, rfl, rfl⟩
  visited node small := by
    rw [neighboursInside small]
    exact rowReads (tells.tells.readable node (tells.nodes ▸ small))
  unvisited _ := rowOutside
  degrees _ small := tells.degreeRead small
  count := by
    rw [tells.countRead, vertexList, tells.nodes]
    refine congrArg List.sum (List.map_congr_left fun node member => ?_)
    have small : node < g.nodeCount := tells.nodes ▸ List.mem_range.mp member
    rw [tells.degreeRead small, Option.getD_some, neighboursInside small]

/-- The queries on a graph that a builder made agree with its lists; relationships are gone through in
the nodes of the graph only. -/
theorem queriesAgree (made : g.Made) : Agrees g := by
  obtain ⟨_, _, _, _, -, tells⟩ := made.tells
  exact tells.agrees

def sampleMade : Except EngineError (Relationships Rat) :=
  Builder.outcome (.direct 3) Builder.sampleConfig Builder.sampleAdditions

theorem sampleAgrees : ∃ g : Graph Rat, g.Made ∧ Agrees g ∧
    g.adjacencies = [(0, [1]), (1, [0, 2]), (2, [1])] ∧
    g.row? 1 = some [(0, 5), (2, 4)] ∧ g.row? 3 = none := by
  have read : (sampleMade.toOption.map fun r =>
      ((⟨r, none⟩ : Graph Rat).adjacencies, (⟨r, none⟩ : Graph Rat).row? 1)) =
      some ([(0, [1]), (1, [0, 2]), (2, [1])], some [(0, 5), (2, 4)]) := by cbv
  cases built : sampleMade with
  | error e =>
    rw [built] at read
    cases read
  | ok r =>
    rw [built] at read
    obtain ⟨lists, row⟩ := Prod.mk.inj (Option.some.inj read)
    have made : Graph.Made ⟨r, none⟩ := builtMade (IdMap.directDense (by decide)) built
    have agrees := queriesAgree made
    refine ⟨_, made, agrees, lists, row, agrees.unvisited 3 ?_⟩
    have nodes := congrArg List.length (agrees.all.1.symm.trans (congrArg (List.map Prod.fst) lists))
    rw [vertexList, List.length_range] at nodes
    exact Nat.le_of_eq nodes

def loneNode : Except EngineError (Relationships Rat) := Builder.outcome (.direct 1) .default []

/-- Behind the last node there are no neighbours, but going through its relationships fails. -/
theorem outsideUnvisited : ¬ ∀ g : Graph Rat, g.Made → ∀ node, ∃ values : List Rat,
    g.row? node = some ((g.neighboursOrEmpty node).zip values) := by
  intro visited
  have read : (loneNode.toOption.map fun r => (⟨r, none⟩ : Graph Rat).row? 1) = some none := by cbv
  cases built : loneNode with
  | error e =>
    rw [built] at read
    cases read
  | ok r =>
    rw [built] at read
    obtain ⟨values, row⟩ := visited ⟨r, none⟩ (builtMade (IdMap.directDense (by decide)) built) 1
    cases (Option.some.inj read).symm.trans row

end Graph
end CommunityGraph
