import CommunityGraph.Proofs.Builder.Correctness
import CommunityGraph.Proofs.Staging.Straddle

/-! Additions between two nodes that a builder can always store and whose halves arrive apart: the nodes
see the two parallel relationships in opposite orders. -/
namespace CommunityGraph
variable {α : Type}

namespace Builder
open AdjacencyBuffer Relationships Link

section FewTargets
variable [Weight α] {layout : PropertyLayout} {links : List (Link α)} {limit : Nat}

theorem foldedShort (folds : layout.folds = true) (inside : Inside limit links) (node : Nat) :
    (finalRows layout (links.map stage) node).length ≤ limit := by
  have strict := Row.arrangeFolded folds (StagedEntry.rowsOf node (links.map stage))
  have distinct : (((finalRows layout (links.map stage) node).map Row.target).map
      UInt64.toNat).Nodup :=
    List.pairwise_map.mpr (strict.imp fun below => Nat.ne_of_lt (UInt64.lt_iff_toNat_lt.mp below))
  have bounded : ((finalRows layout (links.map stage) node).map Row.target).map UInt64.toNat ⊆
      List.range limit := by
    intro target member
    obtain ⟨word, there, rfl⟩ := List.mem_map.mp member
    rw [finalRows, Row.arrangeTargets] at there
    obtain ⟨row, chosen, rfl⟩ := List.mem_map.mp there
    obtain ⟨entry, staged, rfl⟩ := List.mem_map.mp chosen
    obtain ⟨link, taken, rfl⟩ := List.mem_map.mp (List.mem_of_mem_filter staged)
    have below : (UInt64.ofNat link.target).toNat ≤ link.target := by
      rw [UInt64.toNat_ofNat']
      exact Nat.mod_le _ _
    exact List.mem_range.mpr (Nat.lt_of_le_of_lt below (inside link taken).2)
  have short := (List.subperm_of_subset distinct bounded).length_le
  simpa using short

theorem fewTargetsFit (folds : layout.folds = true) (inside : Inside limit links)
    (packed : 9 * limit ≤ Memory.maxBlock)
    (valued : limit * layout.propertyCount * 8 ≤ Memory.maxBlock) (nodeCount : Nat)
    (e : EngineError) : ¬ Exhausts nodeCount layout (links.map stage) e := by
  rintro ⟨-, node, -, costly⟩
  exact costly (AdjacencyStore.storableShort (foldedShort folds inside node) packed valued)

end FewTargets

def additionOf (link : Link α) : Addition α := .internal link.source link.target link.values

theorem additionsTaken [Weight α] {idMap : IdMap} {config : BuilderConfig α}
    {layout : PropertyLayout} {links : List (Link α)} (inside : Inside idMap.nodeCount links)
    (usable : ∀ link ∈ links, Usable layout link.values) :
    (links.map additionOf).filterMap (link? idMap config layout) = links := by
  rw [List.filterMap_map, List.filterMap_eq_map_iff_forall_eq_some.mpr, List.map_id']
  intro link member
  obtain ⟨source, target⟩ := inside link member
  simp [additionOf, link?, source, target, usable link member]

def straddling (half others count : Nat) : List (Link Rat) :=
  Schedule.straddle half others ⟨0, 0, List.replicate count 0⟩ ⟨0, 1, List.replicate count 1⟩
    ⟨0, 1, List.replicate count 2⟩

variable {half others count : Nat}

theorem straddlingCases {link : Link Rat} (member : link ∈ straddling half others count) :
    link.source = 0 ∧ link.target ≤ 1 ∧ ∃ value, link.values = List.replicate count value := by
  simp only [straddling, Schedule.straddle, List.mem_append, List.mem_cons, List.mem_replicate,
    List.not_mem_nil, or_false] at member
  rcases member with (⟨-, rfl⟩ | ⟨-, rfl⟩) | rfl | ⟨-, rfl⟩ | rfl <;>
    exact ⟨rfl, by simp, _, rfl⟩

theorem straddlingInside : Inside 2 (straddling half others count) := by
  intro link member
  obtain ⟨source, target, -⟩ := straddlingCases member
  omega

theorem straddlingUsable {layout : PropertyLayout} :
    ∀ link ∈ straddling half others layout.propertyCount, Usable layout link.values := by
  intro link member
  obtain ⟨-, -, value, same⟩ := straddlingCases member
  rw [same]
  exact ⟨List.length_replicate, fun _ _ => rfl⟩

theorem straddlingArrived {config : BuilderConfig Rat}
    (undirected : config.orientation = .undirected) (size : config.bufferSize = 2 * half + 3)
    (slots : config.concurrency = others + 1) (several : 0 < others) (count : Nat) :
    between 0 1 (arrivedLinks config (straddling half others count)) =
        [List.replicate count 1, List.replicate count 2] ∧
      between 1 0 (arrivedLinks config (straddling half others count)) =
        [List.replicate count 2, List.replicate count 1] := by
  rw [arrivedLinks, undirected, size, slots, straddling, Schedule.straddleMap]
  unfold oriented swap between
  constructor
  · rw [Schedule.arrivalsStraddled (by simp) half several]
    rfl
  · rw [Schedule.arrivalsStraddled (by simp) half several]
    rfl

end Builder
end CommunityGraph
