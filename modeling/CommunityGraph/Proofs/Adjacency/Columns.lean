import CommunityGraph.Proofs.Adjacency.Row

/-! Rows and their columns hold the same values, and arranging rows treats every property by itself:
at each target its values are kept in order, or merged under its own aggregation. -/
namespace CommunityGraph.Row
variable {α : Type}

def Wide (count : Nat) (rows : List (Row α)) : Prop := ∀ row ∈ rows, row.values.length = count

namespace Wide
variable {count : Nat} {row : Row α} {rows others : List (Row α)}

theorem head (h : Wide count (row :: rows)) : row.values.length = count := h row (by simp)

theorem tail (h : Wide count (row :: rows)) : Wide count rows :=
  fun other member => h other (List.mem_cons_of_mem _ member)

theorem cons (first : row.values.length = count) (h : Wide count rows) :
    Wide count (row :: rows) := by
  intro other member
  rcases List.mem_cons.mp member with same | inside
  · exact same ▸ first
  · exact h other inside

theorem append (left : Wide count rows) (right : Wide count others) :
    Wide count (rows ++ others) := by
  intro row member
  rcases List.mem_append.mp member with inside | inside
  · exact left row inside
  · exact right row inside

theorem perm (h : Wide count rows) (same : others.Perm rows) : Wide count others :=
  fun row member => h row (same.mem_iff.mp member)

theorem valuesAt (h : Wide count rows) (target : UInt64) :
    ∀ values ∈ Row.valuesAt target rows, values.length = count := by
  intro values member
  obtain ⟨row, chosen, rfl⟩ := List.mem_map.mp member
  exact h row (List.mem_of_mem_filter chosen)

end Wide

theorem columnCons (row : Row α) (rows : List (Row α)) {property : Nat} {value : α}
    (present : row.values[property]? = some value) :
    column (row :: rows) property = value :: column rows property := by
  simp [column, present]

theorem columnAppend (xs ys : List (Row α)) (property : Nat) :
    column (xs ++ ys) property = column xs property ++ column ys property := by
  simp [column]

theorem columnLength {count property : Nat} {rows : List (Row α)} (wide : Wide count rows)
    (inside : property < count) : (column rows property).length = rows.length := by
  induction rows with
  | nil => rfl
  | cons row rows ih =>
    have present := List.getElem?_eq_getElem (wide.head.symm ▸ inside)
    rw [columnCons row rows present, List.length_cons, ih wide.tail, List.length_cons]

@[simp] theorem columnsLength (count : Nat) (rows : List (Row α)) :
    (columns count rows).length = count := by
  simp [columns]

theorem columnsGet {count property : Nat} (inside : property < count) (rows : List (Row α)) :
    (columns count rows)[property]? = some (column rows property) := by
  simp [columns, inside]

theorem columnsEven {count : Nat} {rows : List (Row α)} (wide : Wide count rows) :
    ∀ values ∈ columns count rows, values.length = rows.length := by
  intro values member
  obtain ⟨property, inside, rfl⟩ := List.mem_map.mp member
  exact columnLength wide (List.mem_range.mp inside)

theorem columnsNil (count : Nat) : columns count ([] : List (Row α)) = List.replicate count [] := by
  have same : column ([] : List (Row α)) = fun _ => [] := rfl
  rw [columns, same, List.map_const', List.length_range]

theorem columnsCons {count : Nat} {row : Row α} (first : row.values.length = count)
    (rows : List (Row α)) :
    columns count (row :: rows) = List.zipWith List.cons row.values (columns count rows) := by
  apply List.ext_getElem?
  intro property
  by_cases inside : property < count
  · have present := List.getElem?_eq_getElem (first.symm ▸ inside)
    rw [columnsGet inside, columnCons row rows present, List.getElem?_zipWith, present,
      columnsGet inside]
  · rw [List.getElem?_eq_none (by simp; omega), List.getElem?_eq_none (by simp; omega)]

theorem headsZip {values : List α} {columns : List (List α)}
    (same : values.length = columns.length) :
    (List.zipWith List.cons values columns).filterMap List.head? = values := by
  induction values generalizing columns with
  | nil => simp
  | cons value values ih =>
    cases columns with
    | nil => simp at same
    | cons column columns => simpa using ih (by simpa using same)

theorem tailsZip {values : List α} {columns : List (List α)}
    (same : values.length = columns.length) :
    (List.zipWith List.cons values columns).map List.tail = columns := by
  induction values generalizing columns with
  | nil => simpa using (List.eq_nil_of_length_eq_zero same.symm).symm
  | cons value values ih =>
    cases columns with
    | nil => simp at same
    | cons column columns => simpa using ih (by simpa using same)

theorem ofColumnsColumns {count : Nat} {rows : List (Row α)} (wide : Wide count rows) :
    ofColumns (rows.map target) (columns count rows) = rows := by
  induction rows with
  | nil => rfl
  | cons row rows ih =>
    have same : row.values.length = (columns count rows).length := by simp [wide.head]
    rw [columnsCons wide.head, List.map_cons, ofColumns, headsZip same, tailsZip same,
      ih wide.tail]

theorem headsTails {columns : List (List α)} (nonempty : ∀ column ∈ columns, column ≠ []) :
    List.zipWith List.cons (columns.filterMap List.head?) (columns.map List.tail) = columns ∧
      (columns.filterMap List.head?).length = columns.length := by
  induction columns with
  | nil => exact ⟨rfl, rfl⟩
  | cons column columns ih =>
    obtain ⟨value, rest, rfl⟩ := List.exists_cons_of_ne_nil (nonempty column (by simp))
    have tail := ih fun other member => nonempty other (List.mem_cons_of_mem _ member)
    exact ⟨by simp [tail.1], by simp [tail.2]⟩

theorem columnsOfColumns {targets : List UInt64} {cols : List (List α)}
    (even : ∀ column ∈ cols, column.length = targets.length) :
    (ofColumns targets cols).map target = targets ∧
      columns cols.length (ofColumns targets cols) = cols ∧
      Wide cols.length (ofColumns targets cols) := by
  induction targets generalizing cols with
  | nil =>
    refine ⟨rfl, ?_, by simp [ofColumns, Wide]⟩
    have empty : cols = List.replicate cols.length [] :=
      List.eq_replicate_of_mem fun column member => List.eq_nil_of_length_eq_zero (even column member)
    exact (columnsNil _).trans empty.symm
  | cons first targets ih =>
    have nonempty : ∀ column ∈ cols, column ≠ [] := by
      intro column member nil
      have length := even column member
      simp [nil] at length
    have shorter : ∀ column ∈ cols.map List.tail, column.length = targets.length := by
      intro column member
      obtain ⟨longer, inside, rfl⟩ := List.mem_map.mp member
      simp [even longer inside]
    obtain ⟨zipped, width⟩ := headsTails nonempty
    obtain ⟨rest, back, wide⟩ := ih shorter
    rw [List.length_map] at back wide
    refine ⟨by simp [ofColumns, rest], ?_, .cons width wide⟩
    rw [ofColumns, columnsCons width, back, zipped]

def foundAt {β γ : Type} [DecidableEq γ] (target : γ) (targets : List γ) (values : List β) :
    List β :=
  ((targets.zip values).filter fun pair => pair.1 = target).map Prod.snd

theorem foundAtColumn {count property : Nat} {rows : List (Row α)} (wide : Wide count rows)
    (inside : property < count) (target : UInt64) :
    foundAt target (rows.map Row.target) (column rows property) =
      (valuesAt target rows).filterMap fun values => values[property]? := by
  induction rows with
  | nil => rfl
  | cons row rows ih =>
    have present := List.getElem?_eq_getElem (wide.head.symm ▸ inside)
    have tail := ih wide.tail
    rw [columnCons row rows present, valuesAtCons]
    simp only [foundAt, List.map_cons, List.zip_cons_cons, List.filter_cons] at tail ⊢
    by_cases same : row.target = target
    · simp [same, tail, present]
    · simp [same, tail]

section Folding
variable [Weight α]

theorem mergeValuesLength (aggregations : List Aggregation) (current values : List α) :
    (mergeValues aggregations current values).length = current.length := by
  induction aggregations generalizing current values with
  | nil => simp [mergeValues]
  | cons a as ih =>
    cases current with
    | nil => rfl
    | cons x xs =>
      cases values with
      | nil => rfl
      | cons y ys => simp [mergeValues, ih]

theorem mergeValuesGet {aggregations : List Aggregation} {current values : List α} {property : Nat}
    {a : Aggregation} {x y : α} (policy : aggregations[property]? = some a)
    (left : current[property]? = some x) (right : values[property]? = some y) :
    (mergeValues aggregations current values)[property]? = some (a.merge x y) := by
  induction aggregations generalizing current values property with
  | nil => simp at policy
  | cons first as ih =>
    cases current with
    | nil => simp at left
    | cons x' xs =>
      cases values with
      | nil => simp at right
      | cons y' ys =>
        cases property with
        | zero =>
          simp only [List.getElem?_cons_zero, Option.some.injEq] at policy left right
          simp [mergeValues, policy, left, right]
        | succ property => simpa [mergeValues] using ih policy left right

theorem foldMergeGet {aggregations : List Aggregation} {property count : Nat} {a : Aggregation}
    (policy : aggregations[property]? = some a) (inside : property < count)
    {rest : List (List α)} (wide : ∀ values ∈ rest, values.length = count)
    {current : List α} {x : α} (start : current[property]? = some x) :
    (rest.foldl (mergeValues aggregations) current)[property]? =
      some ((rest.filterMap fun values => values[property]?).foldl a.merge x) := by
  induction rest generalizing current x with
  | nil => simpa using start
  | cons values rest ih =>
    have present := List.getElem?_eq_getElem ((wide values (by simp)).symm ▸ inside)
    have step := mergeValuesGet policy start present
    rw [List.foldl_cons, ih (fun v hv => wide v (List.mem_cons_of_mem _ hv)) step]
    simp [present]

theorem columnMerged {aggregations : List Aggregation} {property count : Nat} {a : Aggregation}
    (policy : aggregations[property]? = some a) (inside : property < count)
    {found : List (List α)} (wide : ∀ values ∈ found, values.length = count) :
    (merged aggregations found).filterMap (fun values => values[property]?) =
      (a.fold? (found.filterMap fun values => values[property]?)).toList := by
  cases found with
  | nil => rfl
  | cons first rest =>
    have present := List.getElem?_eq_getElem ((wide first (by simp)).symm ▸ inside)
    have folded := foldMergeGet policy inside
      (fun v hv => wide v (List.mem_cons_of_mem _ hv)) present
    simp [merged, folded, present, Aggregation.fold?]

theorem absorbWide {count : Nat} (aggregations : List Aggregation) {row : Row α}
    {rows : List (Row α)} (wide : Wide count (row :: rows)) :
    Wide count (absorb aggregations row rows) := by
  induction rows generalizing row with
  | nil => exact wide
  | cons other rows ih =>
    rw [absorb]
    split
    · refine ih (.cons ?_ wide.tail.tail)
      rw [mergeValuesLength]
      exact wide.head
    · exact .cons wide.head (ih wide.tail)

theorem arrangeWide {count : Nat} (layout : PropertyLayout) {rows : List (Row α)}
    (wide : Wide count rows) : Wide count (arrange layout rows) := by
  have sorted := wide.perm (sortPerm rows)
  unfold arrange
  split
  · cases hs : sort rows with
    | nil => simp [foldRuns, Wide]
    | cons row rest => rw [hs] at sorted; exact absorbWide layout.aggregations sorted
  · exact sorted

theorem arrangeColumn {layout : PropertyLayout} {property count : Nat} {a : Aggregation}
    (policy : layout.aggregations[property]? = some a) (inside : property < count)
    {rows : List (Row α)} (wide : Wide count rows) (target : UInt64) :
    foundAt target ((arrange layout rows).map Row.target)
        (column (arrange layout rows) property) =
      if layout.folds then
        (a.fold? (foundAt target (rows.map Row.target) (column rows property))).toList
      else foundAt target (rows.map Row.target) (column rows property) := by
  rw [foundAtColumn (arrangeWide layout wide) inside, foundAtColumn wide inside, valuesAtArrange]
  unfold collapsed
  split
  · exact columnMerged policy inside (wide.valuesAt target)
  · rfl

end Folding
end CommunityGraph.Row
