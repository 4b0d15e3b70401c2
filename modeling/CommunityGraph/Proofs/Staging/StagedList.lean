import CommunityGraph.Proofs.Adjacency.Columns
import CommunityGraph.Proofs.Codec.Varlong
import CommunityGraph.Staging.StagedList

/-! A staged list gives back the rows that were added to it, in order. -/
namespace CommunityGraph.StagedList
variable {α : Type}

structure Keeps (count : Nat) (rows : List (Row α)) (list : StagedList α) : Prop where
  wide : Row.Wide count rows
  bytes : list.bytes.toList = Varlong.encodeDeltas 0 (rows.map Row.target)
  last : list.last = Varlong.lastTarget 0 (rows.map Row.target)
  length : list.count = rows.length
  columns : list.columns = (Row.columns count rows).map List.toArray

theorem emptyKeeps (count : Nat) : Keeps count [] (empty count : StagedList α) where
  wide := by simp [Row.Wide]
  bytes := rfl
  last := rfl
  length := rfl
  columns := by simp [empty, Row.columnsNil]

theorem columnsSnoc {count : Nat} {row : Row α} (last : row.values.length = count)
    (rows : List (Row α)) :
    Row.columns count (rows ++ [row]) =
      List.zipWith (fun column value => column ++ [value]) (Row.columns count rows) row.values := by
  apply List.ext_getElem?
  intro property
  by_cases inside : property < count
  · have present := List.getElem?_eq_getElem (last.symm ▸ inside)
    rw [Row.columnsGet inside, Row.columnAppend, List.getElem?_zipWith, Row.columnsGet inside,
      present]
    simp [Row.column, present]
  · rw [List.getElem?_eq_none (by simp; omega), List.getElem?_eq_none (by simp; omega)]

theorem pushValuesZip {columns : List (List α)} {values : List α}
    (same : values.length = columns.length) :
    pushValues (columns.map List.toArray) values =
      (List.zipWith (fun column value => column ++ [value]) columns values).map List.toArray := by
  induction columns generalizing values with
  | nil => simp [pushValues]
  | cons column columns ih =>
    cases values with
    | nil => simp at same
    | cons value values => simp [pushValues, ih (by simpa using same)]

theorem Keeps.add {count : Nat} {rows : List (Row α)} {list : StagedList α}
    (keeps : Keeps count rows list) (target : UInt64) {values : List α}
    (full : values.length = count) :
    Keeps count (rows ++ [⟨target, values⟩]) (list.add target values) where
  wide := keeps.wide.append (.cons full (by simp [Row.Wide]))
  bytes := by
    simp [StagedList.add, keeps.bytes, keeps.last, Varlong.encodeDeltasAppend]
  last := by simp [StagedList.add, Varlong.lastTargetAppend, Varlong.lastTarget]
  length := by simp [StagedList.add, keeps.length]
  columns := by
    simp only [StagedList.add, keeps.columns]
    rw [columnsSnoc full, pushValuesZip (by simp [full])]

theorem Keeps.unique {count : Nat} {rows : List (Row α)} {list list' : StagedList α}
    (one : Keeps count rows list) (other : Keeps count rows list') : list = list' := by
  obtain ⟨bytes, last, length, columns⟩ := list
  obtain ⟨bytes', last', length', columns'⟩ := list'
  obtain rfl : bytes = bytes' := Array.toList_inj.mp (one.bytes.trans other.bytes.symm)
  obtain rfl : last = last' := one.last.trans other.last.symm
  obtain rfl : length = length' := one.length.trans other.length.symm
  obtain rfl : columns = columns' := one.columns.trans other.columns.symm
  rfl

section Reading
variable {count : Nat} {rows : List (Row α)} {list : StagedList α}

theorem Keeps.targets (keeps : Keeps count rows list) : list.targets = rows.map Row.target := by
  have decoded := Varlong.decodeDeltasEncodeDeltas 0 (rows.map Row.target) []
  rw [List.length_map, List.append_nil, ← keeps.bytes, ← keeps.length] at decoded
  simp [StagedList.targets, decoded]

theorem Keeps.values (keeps : Keeps count rows list) : list.values = Row.columns count rows := by
  have same : Array.toList ∘ List.toArray = (id : List α → List α) := rfl
  rw [StagedList.values, keeps.columns, List.map_map, same, List.map_id]

end Reading
end CommunityGraph.StagedList
