import CommunityGraph.Proofs.Builder.Build

/-! Reading finished relationships: the list of a node, each target with one value of every property. -/
namespace CommunityGraph
variable {α : Type}

namespace Row

def read (row : Row α) : Nat × List α := (row.target.toNat, row.values)

end Row

namespace Relationships

def paired : List Nat → List (List α) → List (Nat × List α)
  | [], _ => []
  | target :: targets, columns =>
      (target, columns.filterMap List.head?) :: paired targets (columns.map List.tail)

def listed (adjacency : AdjacencyList) (properties : List (RelationshipProperty α)) (node : Nat) :
    List (Nat × List α) :=
  paired (adjacency.targets node) (properties.map fun property => property.values node)

def Readable (adjacency : AdjacencyList) (properties : List (RelationshipProperty α))
    (node : Nat) : Prop :=
  ∃ targets, adjacency.targets? node = some targets ∧
    adjacency.degree? node = some targets.length ∧
    ∀ property ∈ properties, ∃ values, property.values? node = some values ∧
      values.length = targets.length

theorem pairedRows (targets : List UInt64) (columns : List (List α)) :
    paired (targets.map UInt64.toNat) columns = (Row.ofColumns targets columns).map Row.read := by
  induction targets generalizing columns with
  | nil => rfl
  | cons target targets ih => simp [paired, Row.ofColumns, Row.read, ih]

end Relationships

namespace Builder
open AdjacencyBuffer Relationships
variable {config : BuilderConfig α} {layout : PropertyLayout}

theorem namedGet (valid : config.Valid layout) (storage : PropertyStorage α) {index : Nat}
    (inside : index < layout.propertyCount) :
    ∃ property, (namedProperties config layout (some storage))[index]? = some property ∧
      property.storage = storage ∧ property.index = index ∧
      layout.keys[index]? = some property.key ∧
      layout.aggregations[index]? = some property.aggregation := by
  have keys : layout.keys = config.keys := by rw [PropertyLayout.makeLayout valid.made]
  have even := PropertyLayout.makeEven valid.made
  have here : index < config.properties.length := valid.properties ▸ inside
  have policy := List.getElem?_eq_getElem (even.symm ▸ inside)
  refine ⟨⟨config.properties[index].key, layout.aggregations[index],
    config.properties[index].defaultValue, storage, index⟩, ?_, rfl, rfl, ?_, policy⟩
  · simp [namedProperties, List.getElem?_mapIdx, List.getElem?_zip_eq_some, policy, here]
  · rw [keys]
    simp [BuilderConfig.keys, here]

theorem namedLength (valid : config.Valid layout) (storage : PropertyStorage α) :
    (namedProperties config layout (some storage)).length = layout.propertyCount := by
  have even := PropertyLayout.makeEven valid.made
  simp [namedProperties, even, ← valid.properties]

variable {nodeCount : Nat} {entries : List (StagedEntry α)} {adjacency : AdjacencyList}
  {properties : List (RelationshipProperty α)}

structure Reads (layout : PropertyLayout) (rows : List (Row α)) (node : Nat)
    (adjacency : AdjacencyList) (properties : List (RelationshipProperty α)) : Prop where
  targets : adjacency.targets? node = some (rows.map fun row => row.target.toNat)
  degree : adjacency.degree? node = some rows.length
  wide : Row.Wide layout.propertyCount rows
  values : ∀ (index : Nat) (property : RelationshipProperty α), properties[index]? = some property →
    property.values? node = some (Row.column rows index)
  listed : listed adjacency properties node = rows.map Row.read

theorem Reads.readable {rows : List (Row α)} {node : Nat}
    (reads : Reads layout rows node adjacency properties)
    (length : properties.length = layout.propertyCount) : Readable adjacency properties node := by
  refine ⟨_, reads.targets, by rw [reads.degree, List.length_map], fun property member => ?_⟩
  obtain ⟨index, found⟩ := List.getElem?_of_mem member
  have small : index < layout.propertyCount := length ▸ (List.getElem?_eq_some_iff.mp found).1
  refine ⟨_, reads.values index property found, ?_⟩
  rw [Row.columnLength reads.wide small, List.length_map]

variable [Weight α]

theorem Listed.length (lists : Listed nodeCount config layout entries adjacency properties)
    (valid : config.Valid layout) : properties.length = layout.propertyCount := by
  obtain ⟨store, compacted, -, rfl⟩ := lists
  rcases Nat.eq_zero_or_pos store.layout.propertyCount with none | any
  · simp [AdjacencyStore.build, none, namedProperties, ← compacted.properties]
  · rw [AdjacencyStore.buildProperties any, namedLength valid]

theorem Listed.reads (lists : Listed nodeCount config layout entries adjacency properties)
    (valid : config.Valid layout) {node : Nat} (inside : node < nodeCount) :
    Reads layout (finalRows layout entries node) node adjacency properties := by
  have length := lists.length valid
  obtain ⟨store, compacted, rfl, rfl⟩ := lists
  have stored := compacted.stored node inside
  have wide := stored.wide
  rw [compacted.properties] at wide
  have values : ∀ (index : Nat) (property : RelationshipProperty α),
      (namedProperties config layout store.build.properties)[index]? = some property →
      property.values? node = some (Row.column (finalRows layout entries node) index) := by
    intro index property found
    have small : index < layout.propertyCount := length ▸ (List.getElem?_eq_some_iff.mp found).1
    have any : 0 < store.layout.propertyCount := by
      rw [compacted.properties]
      exact Nat.zero_lt_of_lt small
    rw [AdjacencyStore.buildProperties any] at found
    obtain ⟨named, there, storage, place, -⟩ := namedGet valid store.storage small
    obtain rfl : named = property := Option.some.inj (there.symm.trans found)
    rw [RelationshipProperty.values?, storage, place]
    exact stored.readValues (compacted.properties ▸ small)
  refine ⟨stored.readTargets, stored.readDegree, wide, values, ?_⟩
  have columns : (namedProperties config layout store.build.properties).map
      (fun property => property.values node) =
      Row.columns layout.propertyCount (finalRows layout entries node) := by
    apply List.ext_getElem?
    intro index
    by_cases small : index < layout.propertyCount
    · have found := List.getElem?_eq_getElem (length.symm ▸ small)
      have read := values index _ found
      rw [Row.columnsGet small, List.getElem?_map, found, Option.map_some]
      simp only [RelationshipProperty.values?] at read
      simp only [RelationshipProperty.values, PropertyStorage.values, read, Option.getD_some]
    · rw [List.getElem?_eq_none (by simp [length]; omega), List.getElem?_eq_none (by simp; omega)]
  have targets : store.build.list.targets node =
      ((finalRows layout entries node).map Row.target).map UInt64.toNat := by
    rw [AdjacencyList.targets, stored.readTargets, Option.getD_some, List.map_map]
    rfl
  rw [Relationships.listed, columns, targets, pairedRows, Row.ofColumnsColumns wide]

theorem Listed.total (lists : Listed nodeCount config layout entries adjacency properties) :
    adjacency.relationshipCount = ((List.range nodeCount).map adjacency.degree).sum := by
  obtain ⟨store, compacted, rfl, -⟩ := lists
  have balanced := compacted.balanced
  rw [AdjacencyStore.Balanced, compacted.nodes] at balanced
  exact balanced

end Builder
end CommunityGraph
