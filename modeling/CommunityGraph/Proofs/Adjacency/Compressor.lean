import Mathlib.Data.List.Basic
import Mathlib.Logic.Function.Basic
import CommunityGraph.Adjacency.Compressor
import CommunityGraph.Proofs.Adjacency.Columns
import CommunityGraph.Proofs.Adjacency.Cursor
import CommunityGraph.Proofs.Storage.Arena

/-! What one compression can do to a store: nothing, record the arranged rows of its node, or run out
of memory at its node. Rows that are recorded read back as they are, whatever other nodes do. -/
namespace CommunityGraph
variable {α : Type}

namespace AdjacencyStore

structure Sound (store : AdjacencyStore α) : Prop where
  degrees : store.degrees.size = store.nodeCount
  addresses : store.addresses.size = store.nodeCount
  valueAddresses : store.valueAddresses.size = store.nodeCount
  targetPages : store.targets.pageSize = targetPageSize ∧ store.targets.elementBytes = 1
  valuePages : store.values.pageSize = valuePageSize ∧ store.values.elementBytes = 8

theorem makeSound (nodeCount : Nat) (layout : PropertyLayout) :
    (make nodeCount layout : AdjacencyStore α).Sound :=
  ⟨by simp [make], by simp [make], by simp [make], ⟨rfl, rfl⟩, ⟨rfl, rfl⟩⟩

def packedTargets (rows : List (Row α)) : List UInt8 :=
  Packing.pack (Row.differences 0 (rows.map Row.target))

structure Stored (store : AdjacencyStore α) (node : Nat) (rows : List (Row α)) : Prop where
  wide : Row.Wide store.layout.propertyCount rows
  degree : store.degrees[node]? = some rows.length
  targets : rows ≠ [] → ∃ address, store.addresses[node]? = some address ∧
    Arena.Holds store.targets.pages address (packedTargets rows)
  values : rows ≠ [] → 0 < store.layout.propertyCount →
    ∃ address, store.valueAddresses[node]? = some address ∧
      Arena.Holds store.values.pages address (Row.columns store.layout.propertyCount rows).flatten

structure Frame (node : Nat) (before after : AdjacencyStore α) : Prop where
  nodeCount : after.nodeCount = before.nodeCount
  layout : after.layout = before.layout
  targets : Arena.Grows before.targets.pages after.targets.pages
  values : Arena.Grows before.values.pages after.values.pages
  degrees : ∀ other, other ≠ node → after.degrees[other]? = before.degrees[other]?
  addresses : ∀ other, other ≠ node → after.addresses[other]? = before.addresses[other]?
  valueAddresses : ∀ other, other ≠ node →
    after.valueAddresses[other]? = before.valueAddresses[other]?

theorem Frame.refl (node : Nat) (store : AdjacencyStore α) : Frame node store store :=
  ⟨rfl, rfl, Arena.growsRefl _, Arena.growsRefl _, fun _ _ => rfl, fun _ _ => rfl, fun _ _ => rfl⟩

theorem Stored.later {node other : Nat} {before after : AdjacencyStore α} {rows : List (Row α)}
    (stored : Stored before other rows) (frame : Frame node before after) (apart : other ≠ node) :
    Stored after other rows where
  wide := by rw [frame.layout]; exact stored.wide
  degree := (frame.degrees other apart).trans stored.degree
  targets nonempty := by
    obtain ⟨address, found, held⟩ := stored.targets nonempty
    exact ⟨address, (frame.addresses other apart).trans found, held.later frame.targets⟩
  values nonempty some := by
    rw [frame.layout] at some ⊢
    obtain ⟨address, found, held⟩ := stored.values nonempty some
    exact ⟨address, (frame.valueAddresses other apart).trans found, held.later frame.values⟩

theorem storedEmpty {store : AdjacencyStore α} {node : Nat}
    (degree : store.degrees[node]? = some 0) : Stored store node [] where
  wide := by simp [Row.Wide]
  degree := degree
  targets nonempty := absurd rfl nonempty
  values nonempty := absurd rfl nonempty

theorem makeStored {nodeCount node : Nat} (inside : node < nodeCount) (layout : PropertyLayout) :
    (make nodeCount layout : AdjacencyStore α).Stored node [] :=
  storedEmpty (by simp [make, inside])

section Reading
variable {store : AdjacencyStore α} {node : Nat} {rows : List (Row α)}

theorem Stored.readDegree (stored : Stored store node rows) :
    store.build.list.degree? node = some rows.length := stored.degree

theorem Stored.readTargets (stored : Stored store node rows) :
    store.build.list.targets? node = some (rows.map fun row => row.target.toNat) := by
  cases hr : rows with
  | nil =>
    have degree := stored.degree
    simp only [hr, List.length_nil] at degree
    simp [AdjacencyList.targets?, AdjacencyList.cursor?, build, degree, Cursor.toListEmpty]
  | cons row rest =>
    rw [← hr]
    have degree := stored.degree
    rw [hr, List.length_cons] at degree
    obtain ⟨address, found, page, there, placed⟩ := stored.targets (by simp [hr])
    have read := Cursor.toListPacked placed
    rw [List.length_map, hr, List.length_cons, ← hr] at read
    have inside : address.offset ≤ page.size := le_trans (Nat.le_add_right _ _) placed.fits
    simp only [AdjacencyList.targets?, AdjacencyList.cursor?, build, degree, found, there,
      if_pos inside, read, Option.map_some, List.map_map, Function.comp_def]

theorem columnsSplit {count property : Nat} (wide : Row.Wide count rows)
    (inside : property < count) : ∃ before after,
      (Row.columns count rows).flatten = before ++ Row.column rows property ++ after ∧
        before.length = property * rows.length := by
  refine ⟨((Row.columns count rows).take property).flatten,
    ((Row.columns count rows).drop (property + 1)).flatten, ?_, ?_⟩
  · have parts := List.take_append_drop property (Row.columns count rows)
    have here : property < (Row.columns count rows).length := by simpa using inside
    have column : (Row.columns count rows)[property] = Row.column rows property :=
      Option.some.inj ((List.getElem?_eq_getElem here).symm.trans (Row.columnsGet inside rows))
    rw [List.drop_eq_getElem_cons here, column] at parts
    conv_lhs => rw [← parts]
    simp
  · rw [List.length_flatten]
    have even : ((Row.columns count rows).take property).map List.length =
        List.replicate property rows.length := by
      refine List.eq_replicate_iff.mpr ⟨by simp; omega, fun length member => ?_⟩
      obtain ⟨column, chosen, rfl⟩ := List.mem_map.mp member
      exact Row.columnsEven wide column (List.mem_of_mem_take chosen)
    rw [even, List.sum_replicate_nat]

def storage (store : AdjacencyStore α) : PropertyStorage α :=
  ⟨store.degrees, store.valueAddresses, store.values.pages, store.layout.propertyCount⟩

theorem buildProperties (some : 0 < store.layout.propertyCount) :
    store.build.properties = Option.some store.storage := by
  simp [build, storage, some]

theorem Stored.readValues (stored : Stored store node rows) {property : Nat}
    (inside : property < store.layout.propertyCount) :
    store.storage.values? node property = some (Row.column rows property) := by
  cases hr : rows with
  | nil =>
    have degree := stored.degree
    simp only [hr, List.length_nil] at degree
    simp [storage, PropertyStorage.values?, degree, Row.column]
  | cons row rest =>
    rw [← hr]
    have degree := stored.degree
    rw [hr, List.length_cons] at degree
    obtain ⟨address, found, held⟩ := stored.values (by simp [hr]) (Nat.zero_lt_of_lt inside)
    obtain ⟨before, after, split, length⟩ := columnsSplit stored.wide inside
    rw [split] at held
    have read := Arena.sliceHeld held.left.right
    rw [length, Row.columnLength stored.wide inside, hr, List.length_cons, ← hr] at read
    simp only [storage, PropertyStorage.values?, degree, found, read]

end Reading
end AdjacencyStore
end CommunityGraph
