import Mathlib
import CommunityGraph.Graph
import CommunityGraph.Proofs.Builder.Correctness
import CommunityGraph.Proofs.Graph.Linked

/-! Graphs that builders make, read as rows of targets with weights: no row is cut short, no target lies
outside, and the relationships are those that the builder took. -/
namespace CommunityGraph
variable {α : Type}

namespace Relationships

theorem pairedNone (targets : List Nat) :
    paired targets ([] : List (List α)) = targets.map fun target => (target, []) := by
  induction targets with
  | nil => rfl
  | cons target targets ih => simpa [paired] using ih

theorem pairedOne {targets : List Nat} {values : List α} (even : values.length = targets.length) :
    paired targets [values] =
      (targets.zip values).map fun (target, value) => (target, [value]) := by
  induction targets generalizing values with
  | nil => rfl
  | cons target targets ih =>
    obtain ⟨value, rest, rfl⟩ := List.exists_cons_of_length_eq_add_one even
    have tail := ih (by simpa using even : rest.length = targets.length)
    simp [paired, tail]

end Relationships

theorem onceAmong {β : Type} {nodes : List Nat} (distinct : nodes.Nodup) {node : Nat}
    (member : node ∈ nodes) (value : Nat → β) :
    (nodes.flatMap fun other => if node = other then [value other] else []) = [value node] := by
  induction nodes with
  | nil => cases member
  | cons other nodes ih =>
    obtain ⟨fresh, distinct⟩ := List.nodup_cons.mp distinct
    by_cases here : node = other
    · subst here
      have apart : ∀ later ∈ nodes, (if node = later then [value later] else []) = [] :=
        fun later there => if_neg fun (same : node = later) => fresh (same ▸ there)
      simp [List.flatMap_eq_nil_iff.mpr apart]
    · have later := (List.mem_cons.mp member).resolve_left here
      simp [here, ih distinct later]

theorem Link.outgoingAll {β : Type} {nodeCount : Nat} {links : List (Link α)}
    (inside : ∀ link ∈ links, link.source < nodeCount) (told : Nat → Nat × List α → β) :
    ((List.range nodeCount).flatMap fun node => (outgoing node links).map (told node)).Perm
      (links.map fun link => told link.source (link.target, link.values)) := by
  induction links with
  | nil => simp [outgoing]
  | cons link links ih =>
    have rest := ih fun other member => inside other (List.mem_cons_of_mem _ member)
    have split : ∀ node ∈ List.range nodeCount, (outgoing node (link :: links)).map (told node) =
        (if link.source = node then [told node (link.target, link.values)] else []) ++
          (outgoing node links).map (told node) := by
      intro node _
      by_cases here : link.source = node <;> simp [outgoing, here]
    have member := List.mem_range.mpr (inside link (by simp))
    rw [List.flatMap_congr split, List.map_cons]
    refine (List.flatMap_append_perm _ _ _).symm.trans ?_
    rw [onceAmong List.nodup_range member fun node => told node (link.target, link.values)]
    exact rest.cons _

namespace Network

def edges (network : Network α) : List (Nat × Nat) :=
  (List.range network.nodeCount).flatMap fun node => (network.targets node).map fun t => (node, t)

def between (network : Network α) (source target : Nat) : List α :=
  ((network.row source).filter fun entry => entry.1 = target).map Prod.snd

def Inside (network : Network α) : Prop :=
  ∀ source target, target ∈ network.targets source → target < network.nodeCount

def Mirrored (network : Network α) : Prop :=
  ∀ source target, target ∈ network.targets source → source ∈ network.targets target

variable {network : Network α} {source target : Nat}

theorem rowOutside {node : Nat} (outside : network.nodeCount ≤ node) : network.row node = [] := by
  rw [row, Array.getD_eq_getD_getElem?, Array.getElem?_eq_none outside, Option.getD_none]

theorem sourceInside (member : target ∈ network.targets source) : source < network.nodeCount := by
  by_contra outside
  rw [targets, rowOutside (Nat.not_lt.mp outside)] at member
  cases member

theorem Mirrored.inside (mirrored : network.Mirrored) : network.Inside :=
  fun source target member => sourceInside (mirrored source target member)

theorem memBetween {weight : α} :
    weight ∈ network.between source target ↔ (target, weight) ∈ network.row source := by
  simp [between]

theorem betweenOutside (inside : network.Inside)
    (outside : ¬ (source < network.nodeCount ∧ target < network.nodeCount)) :
    network.between source target = [] := by
  refine List.eq_nil_iff_forall_not_mem.mpr fun weight member => outside ?_
  have there : target ∈ network.targets source := List.mem_map_of_mem (memBetween.mp member)
  exact ⟨sourceInside there, inside source target there⟩

theorem memEdges : (source, target) ∈ network.edges ↔ target ∈ network.targets source := by
  simp only [edges, List.mem_flatMap, List.mem_range, List.mem_map, Prod.mk.injEq]
  constructor
  · rintro ⟨node, -, t, member, rfl, rfl⟩
    exact member
  · intro member
    exact ⟨source, sourceInside member, target, member, rfl, rfl⟩

theorem mirroredEdges (back : ∀ edge ∈ network.edges, edge.1 ∈ network.targets edge.2) :
    network.Mirrored :=
  fun source target member => back (source, target) (memEdges.mpr member)

def sampleLine : Network Rat :=
  ⟨#[[(0, 5), (1, 1)], [(0, 1), (2, 1), (2, 4)], [(1, 1), (1, 4), (3, 1)], [(2, 1)]]⟩

end Network

namespace Graph
variable {g : Graph α} {node nodeCount : Nat} {layout : PropertyLayout}
  {links arrivals : List (Link α)}

def edges (g : Graph α) : List (Nat × Nat) :=
  g.vertexList.flatMap fun node => (g.neighbours node).map fun target => (node, target)

theorem weightsOnly {property : RelationshipProperty α}
    (only : g.relationships.properties = [property]) (key : property.key = weightKey) :
    g.weights = some property := by
  simp [weights, Relationships.property, only, key, Except.toOption]

theorem weightsMember {property : RelationshipProperty α} (found : g.weights = some property) :
    property ∈ g.relationships.properties := by
  unfold weights Relationships.property at found
  cases search : g.relationships.properties.find? fun p => p.key = weightKey with
  | none => simp [search, Except.toOption] at found
  | some p =>
    simp only [search, Except.toOption, Option.some.injEq] at found
    exact found ▸ List.mem_of_find?_eq_some search

variable [Weight α]

theorem networkNodes (g : Graph α) : g.network.nodeCount = g.nodeCount := by
  simp [Network.nodeCount, network, vertexList]

theorem networkRow (small : node < g.nodeCount) : g.network.row node = g.row node := by
  simp [Network.row, network, vertexList, small]

def Weighs (g : Graph α) (node count : Nat) (values : List α) : Prop :=
  values.length = count ∧
    match g.weights with
    | none => values = List.replicate count Weight.one
    | some property => property.values? node = some values

theorem Weighs.values {count : Nat} {values : List α} {property : RelationshipProperty α}
    (weighs : g.Weighs node count values) (found : g.weights = some property) :
    property.values node = values := by
  have read := weighs.2
  rw [found] at read
  have storage : property.storage.values? node property.index = some values := read
  rw [RelationshipProperty.values, PropertyStorage.values, storage, Option.getD_some]

theorem rowReads (readable : Relationships.Readable g.adjacency g.relationships.properties node) :
    ∃ values : List α, g.row? node = some ((g.neighbours node).zip values) ∧
      g.Weighs node (g.neighbours node).length values := by
  obtain ⟨targets, read, -, columns⟩ := readable
  have neighbours : g.neighbours node = targets := by
    rw [Graph.neighbours, AdjacencyList.targets, read, Option.getD_some]
  have all : g.neighbours? node = some targets := read
  unfold Weighs
  rw [neighbours]
  cases found : g.weights with
  | none =>
    refine ⟨List.replicate targets.length Weight.one, ?_, List.length_replicate, rfl⟩
    rw [← List.map_const', ← List.map_prod_left_eq_zip]
    simp only [row?, all, found]
  | some property =>
    obtain ⟨values, value, length⟩ := columns property (weightsMember found)
    exact ⟨values, by simp only [row?, all, found, value, Option.map_some], length, value⟩

theorem rowListed (readable : Relationships.Readable g.adjacency g.relationships.properties node)
    {weighted : Bool} (keys : g.relationships.properties.map RelationshipProperty.key =
      if weighted then [weightKey] else []) :
    g.row? node = some ((Relationships.listed g.adjacency g.relationships.properties node).map fun pair =>
      (pair.1, pair.2.headD Weight.one)) := by
  obtain ⟨targets, read, -, columns⟩ := readable
  have neighbours : g.neighbours? node = some targets := read
  have list : g.adjacency.targets node = targets := by
    rw [AdjacencyList.targets, read, Option.getD_some]
  cases weighted with
  | false =>
    have none : g.relationships.properties = [] := List.map_eq_nil_iff.mp keys
    have unweighted : g.weights = Option.none := by
      simp [weights, Relationships.property, none, Except.toOption]
    simp only [row?, neighbours, unweighted, Relationships.listed, none, List.map_nil, list, Relationships.pairedNone,
      List.map_map]
    rfl
  | true =>
    obtain ⟨property, only, key⟩ := List.map_eq_singleton_iff.mp keys
    obtain ⟨values, value, even⟩ := columns property (by simp [only])
    have column : property.values node = values := by
      have storage : property.storage.values? node property.index = some values := value
      rw [RelationshipProperty.values, PropertyStorage.values, storage, Option.getD_some]
    simp only [row?, neighbours, weightsOnly only key, Relationships.listed, only, List.map_cons,
      List.map_nil, column, list, Relationships.pairedOne even, value, Option.map_some, List.map_map]
    congr 1
    symm
    exact List.map_id'' (fun _ => rfl) _

structure Tells (nodeCount : Nat) (layout : PropertyLayout) (links arrivals : List (Link α))
    (g : Graph α) : Prop where
  nodes : g.nodeCount = nodeCount
  inside : Link.Inside nodeCount links
  tells : Builder.Tells nodeCount layout links arrivals g.adjacency g.relationships.properties

theorem Tells.targets (tells : Tells nodeCount layout links arrivals g) (small : node < nodeCount) :
    g.network.targets node = g.neighbours node := by
  obtain ⟨values, row, length, -⟩ := rowReads (tells.tells.readable node small)
  rw [Network.targets, networkRow (tells.nodes ▸ small), Graph.row, row, Option.getD_some,
    List.map_fst_zip (Nat.le_of_eq length.symm)]

theorem Tells.linked (tells : Tells nodeCount layout links arrivals g) (source target : Nat) :
    target ∈ g.network.targets source ↔
      ∃ link ∈ links, link.source = source ∧ link.target = target := by
  have outgoing : target ∈ (Link.outgoing source links).map Prod.fst ↔
      ∃ link ∈ links, link.source = source ∧ link.target = target := by
    simp [Link.outgoing, and_assoc]
  rw [← outgoing]
  by_cases small : source < nodeCount
  · rw [tells.targets small]
    cases folds : layout.folds with
    | false => exact (tells.tells.kept folds source small).2.1.mem_iff
    | true => exact (tells.tells.folded folds source small).2 target
  · rw [outgoing]
    constructor
    · intro member
      have := Network.sourceInside member
      rw [networkNodes, tells.nodes] at this
      exact absurd this small
    · rintro ⟨link, member, rfl, -⟩
      exact absurd (tells.inside link member).1 small

theorem Tells.networkInside (tells : Tells nodeCount layout links arrivals g) :
    g.network.Inside := by
  intro source target member
  obtain ⟨link, taken, -, rfl⟩ := (tells.linked source target).mp member
  rw [networkNodes, tells.nodes]
  exact (tells.inside link taken).2

theorem Tells.edges (tells : Tells nodeCount layout links arrivals g) :
    g.network.edges = g.edges := by
  rw [Network.edges, networkNodes, Graph.edges, vertexList]
  refine List.flatMap_congr fun node member => ?_
  rw [tells.targets (tells.nodes ▸ List.mem_range.mp member)]

theorem Tells.between (tells : Tells nodeCount layout links arrivals g) (folds : layout.folds = true)
    (keys : layout.keys = [weightKey]) {source target : Nat} (sourceInside : source < nodeCount)
    (targetInside : target < nodeCount) :
    ∃ a, layout.aggregations[0]? = some a ∧ g.network.between source target =
      (a.fold? ((Link.between source target arrivals).filterMap fun values => values[0]?)).toList := by
  obtain ⟨property, only, key⟩ := List.map_eq_singleton_iff.mp (tells.tells.keys.trans keys)
  obtain ⟨values, row, weighs⟩ := rowReads (tells.tells.readable source sourceInside)
  obtain ⟨a, policy, found⟩ := tells.tells.merged folds source sourceInside target targetInside 0
    property (by simp [only])
  refine ⟨a, policy, ?_⟩
  rw [weighs.values (weightsOnly only key)] at found
  rw [Network.between, networkRow (tells.nodes ▸ sourceInside), Graph.row, row, Option.getD_some]
  exact found

theorem Tells.neighboursRead (tells : Tells nodeCount layout links arrivals g) (node : Nat) :
    g.neighbours? node = if node < nodeCount then some (g.neighbours node) else none := by
  by_cases small : node < nodeCount
  · obtain ⟨targets, read, -, -⟩ := tells.tells.readable node small
    have all : g.neighbours? node = some targets := read
    rw [if_pos small, Graph.neighbours, AdjacencyList.targets, read, Option.getD_some, all]
  · have beyond : g.adjacency.degrees.size ≤ node := by
      have nodes : g.adjacency.degrees.size = nodeCount := tells.nodes
      omega
    have none : g.adjacency.degrees[node]? = none := Array.getElem?_eq_none beyond
    simp only [if_neg small, Graph.neighbours?, AdjacencyList.targets?, AdjacencyList.cursor?, none]

theorem Tells.countRead (tells : Tells nodeCount layout links arrivals g) :
    g.relationshipCount =
      ((List.range nodeCount).map fun node => (g.neighbours node).length).sum := by
  have total : g.relationshipCount = _ := tells.tells.total
  rw [total]
  congr 1
  refine List.map_congr_left fun node member => ?_
  obtain ⟨targets, read, degree, -⟩ := tells.tells.readable node (List.mem_range.mp member)
  have some : g.adjacency.degrees[node]? = some targets.length := degree
  rw [Graph.neighbours, AdjacencyList.targets, read, Option.getD_some, AdjacencyList.degree,
    Array.getD_eq_getD_getElem?, some, Option.getD_some]

def externalEdges (g : Graph α) : List (Int × Int × α) :=
  g.vertexList.flatMap fun node =>
    (g.row node).map fun entry => (g.externalId node, g.externalId entry.1, entry.2)

theorem Tells.externalEdges (tells : Tells nodeCount layout links arrivals g)
    (keeps : layout.folds = false) {weighted : Bool}
    (keys : layout.keys = if weighted then [weightKey] else []) :
    g.externalEdges.Perm (links.map fun link =>
      (g.externalId link.source, g.externalId link.target, link.values.headD Weight.one)) := by
  let told (node : Nat) (pair : Nat × List α) :=
    (g.externalId node, g.externalId pair.1, pair.2.headD Weight.one)
  have rows : ∀ node ∈ List.range nodeCount,
      ((g.row node).map fun entry => (g.externalId node, g.externalId entry.1, entry.2)).Perm
        ((Link.outgoing node links).map (told node)) := by
    intro node member
    have small := List.mem_range.mp member
    have row := rowListed (tells.tells.readable node small) (tells.tells.keys.trans keys)
    rw [Graph.row, row, Option.getD_some, List.map_map]
    exact ((tells.tells.kept keeps node small).2.2).map (told node)
  rw [Graph.externalEdges, vertexList, tells.nodes]
  exact (List.Perm.flatMap_left _ rows).trans
    (Link.outgoingAll (fun link member => (tells.inside link member).1) told)

end Graph

namespace Builder
variable [Weight α] {idMap : IdMap} {config : BuilderConfig α} {layout : PropertyLayout}
  {b : Builder α} {links : List (Link α)}

theorem Listed.nodes {nodeCount : Nat} {entries : List (StagedEntry α)} {adjacency : AdjacencyList}
    {properties : List (RelationshipProperty α)}
    (lists : Listed nodeCount config layout entries adjacency properties) :
    adjacency.nodeCount = nodeCount := by
  obtain ⟨store, compacted, rfl, -⟩ := lists
  exact compacted.sound.degrees.trans compacted.nodes

theorem Built.graph {nodeCount : Nat} {r : Relationships α}
    (built : Built nodeCount config layout (arrived config links) (inverseArrived config links) r)
    (valid : config.Valid layout) (words : nodeCount ≤ UInt64.size)
    (inside : Link.Inside nodeCount links) (full : Link.Full layout.propertyCount links)
    (ids : Option IdTable) :
    Graph.Tells nodeCount layout (links.flatMap (Link.oriented config.orientation))
      (arrivedLinks config links) ⟨r, ids⟩ where
  nodes := built.lists.nodes
  inside := orientedInside inside config.orientation
  tells := built.tells valid words inside full

end Builder

def Graph.Made [Weight α] (g : Graph α) : Prop :=
  ∃ (idMap : IdMap) (config : BuilderConfig α) (b : Builder α) (additions : List (Addition α))
    (t : Termination) (j : Journal), idMap.Dense ∧ Builder.make idMap config = .ok b ∧
      ((b.performAll additions).build t j).1 = .ok g.relationships

theorem Graph.Made.tells [Weight α] {g : Graph α} (made : g.Made) :
    ∃ nodeCount layout links arrivals, nodeCount ≤ UInt64.size ∧
      Graph.Tells nodeCount layout links arrivals g := by
  obtain ⟨idMap, config, b, additions, t, j, dense, opened, built⟩ := made
  obtain ⟨layout, -, valid, runs⟩ := Builder.makeRuns opened
  have ended := (runs.performAll valid additions).delivers t j fun r built =>
    built.graph valid dense.words (Builder.linksInside dense config layout additions)
      (Builder.linksFull idMap valid additions) g.externalIds
  rw [built] at ended
  exact ⟨_, _, _, _, dense.words, ended⟩

theorem builtMade {idMap : IdMap} (dense : idMap.Dense) {config : BuilderConfig Rat}
    {additions : List (Addition Rat)} {relationships : Relationships Rat}
    (built : Builder.outcome idMap config additions = .ok relationships) :
    Graph.Made ⟨relationships, none⟩ := by
  unfold Builder.outcome at built
  cases opened : Builder.make idMap config with
  | error e =>
    rw [opened] at built
    cases built
  | ok b =>
    rw [opened] at built
    exact ⟨idMap, config, b, additions, .always, .empty, dense, opened, built⟩

theorem Graph.Made.words [Weight α] {g : Graph α} (made : g.Made) : g.nodeCount ≤ UInt64.size := by
  obtain ⟨nodeCount, _, _, _, words, tells⟩ := made.tells
  exact tells.nodes ▸ words

theorem Graph.Made.inside [Weight α] {g : Graph α} (made : g.Made) : g.network.Inside := by
  obtain ⟨_, _, _, _, -, tells⟩ := made.tells
  exact tells.networkInside

theorem Graph.Made.edges [Weight α] {g : Graph α} (made : g.Made) : g.network.edges = g.edges := by
  obtain ⟨_, _, _, _, -, tells⟩ := made.tells
  exact tells.edges

end CommunityGraph
