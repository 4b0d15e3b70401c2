import Mathlib.Data.List.Dedup
import Mathlib.Data.List.Sort
import CommunityGraph.Adjacency.Row
import CommunityGraph.Proofs.StableSort

/-! What arranging does to rows: the targets ascend, and the values found at a target are those that
were there before, in the same order, or their left-to-right merge. -/
namespace CommunityGraph.Row
variable {α : Type}

def valuesAt (target : UInt64) (rows : List (Row α)) : List (List α) :=
  (rows.filter fun row => row.target = target).map Row.values

@[simp] theorem valuesAtNil (target : UInt64) : valuesAt target ([] : List (Row α)) = [] := rfl

theorem valuesAtCons (target : UInt64) (row : Row α) (rows : List (Row α)) :
    valuesAt target (row :: rows) =
      if row.target = target then row.values :: valuesAt target rows else valuesAt target rows := by
  by_cases same : row.target = target <;> simp [valuesAt, same]

theorem valuesAtEmpty {target : UInt64} {rows : List (Row α)} :
    valuesAt target rows = [] ↔ target ∉ rows.map Row.target := by
  simp [valuesAt, List.filter_eq_nil_iff]

def Ascending (rows : List (Row α)) : Prop := rows.Pairwise fun a b => a.target ≤ b.target

theorem sortPerm (rows : List (Row α)) : (sort rows).Perm rows := List.mergeSort_perm _ _

theorem targetsTransitive (a b c : UInt64) (ab : decide (a ≤ b) = true)
    (bc : decide (b ≤ c) = true) : decide (a ≤ c) = true := by
  simp only [decide_eq_true_eq] at ab bc ⊢
  exact UInt64.le_trans ab bc

theorem targetsTotal (a b : UInt64) : (decide (a ≤ b) || decide (b ≤ a)) = true := by
  simp only [Bool.or_eq_true, decide_eq_true_eq]
  exact UInt64.le_total _ _

theorem sortAscending (rows : List (Row α)) : Ascending (sort rows) := by
  have sorted := @List.pairwise_mergeSort _ (fun a b : Row α => decide (a.target ≤ b.target))
    (fun a b c => targetsTransitive a.target b.target c.target)
    (fun a b => targetsTotal a.target b.target) rows
  exact sorted.imp fun h => of_decide_eq_true h

theorem valuesAtSort (target : UInt64) (rows : List (Row α)) :
    valuesAt target (sort rows) = valuesAt target rows := by
  have kept := StableSort.filterSorted (fun a b : UInt64 => decide (a ≤ b)) targetsTransitive
    targetsTotal Row.target target rows
  rw [valuesAt, sort, kept, valuesAt]

section Folding
variable [Weight α]

def merged (aggregations : List Aggregation) : List (List α) → List (List α)
  | [] => []
  | values :: rest => [rest.foldl (mergeValues aggregations) values]

theorem memAbsorb (aggregations : List Aggregation) (row : Row α) (rows : List (Row α))
    (target : UInt64) :
    target ∈ (absorb aggregations row rows).map Row.target ↔
      target ∈ (row :: rows).map Row.target := by
  induction rows generalizing row with
  | nil => rfl
  | cons other rows ih =>
    rw [absorb]
    split
    · rename_i same
      rw [ih]
      simp [same]
    · rw [List.map_cons, List.mem_cons, ih]
      simp

theorem absorbAscending (aggregations : List Aggregation) {row : Row α} {rows : List (Row α)}
    (ascending : Ascending (row :: rows)) :
    ((absorb aggregations row rows).map Row.target).Pairwise (· < ·) := by
  induction rows generalizing row with
  | nil => simp [absorb]
  | cons other rows ih =>
    obtain ⟨least, tail⟩ := List.pairwise_cons.mp ascending
    obtain ⟨later, deep⟩ := List.pairwise_cons.mp tail
    rw [absorb]
    split
    · exact ih (List.pairwise_cons.mpr ⟨fun x hx => least x (List.mem_cons_of_mem _ hx), deep⟩)
    · rename_i different
      rw [List.map_cons, List.pairwise_cons]
      refine ⟨fun target member => ?_, ih tail⟩
      have strict : row.target < other.target :=
        UInt64.lt_of_le_of_ne (least other (by simp)) (Ne.symm different)
      rcases List.mem_cons.mp ((memAbsorb _ _ _ _).mp member) with same | inside
      · exact same ▸ strict
      · obtain ⟨x, hx, rfl⟩ := List.mem_map.mp inside
        exact UInt64.lt_of_lt_of_le strict (later x hx)

theorem valuesAtAbsorb (aggregations : List Aggregation) {row : Row α} {rows : List (Row α)}
    (ascending : Ascending (row :: rows)) (target : UInt64) :
    valuesAt target (absorb aggregations row rows) =
      merged aggregations (valuesAt target (row :: rows)) := by
  induction rows generalizing row with
  | nil => by_cases same : row.target = target <;> simp [absorb, valuesAtCons, same, merged]
  | cons other rows ih =>
    obtain ⟨least, tail⟩ := List.pairwise_cons.mp ascending
    obtain ⟨later, deep⟩ := List.pairwise_cons.mp tail
    rw [absorb]
    split
    · rename_i equal
      have shorter : Ascending
          (⟨row.target, mergeValues aggregations row.values other.values⟩ :: rows) :=
        List.pairwise_cons.mpr ⟨fun x hx => least x (List.mem_cons_of_mem _ hx), deep⟩
      rw [ih shorter]
      by_cases same : row.target = target <;> simp [valuesAtCons, equal, same, merged]
    · rename_i different
      rw [valuesAtCons target row, valuesAtCons target row, ih tail]
      by_cases same : row.target = target
      · have strict : row.target < other.target :=
          UInt64.lt_of_le_of_ne (least other (by simp)) (Ne.symm different)
        have absent : valuesAt target (other :: rows) = [] := by
          rw [valuesAtEmpty]
          intro member
          rcases List.mem_cons.mp member with first | inside
          · exact different (same ▸ first.symm)
          · obtain ⟨x, hx, place⟩ := List.mem_map.mp inside
            have above := UInt64.lt_of_lt_of_le strict (later x hx)
            rw [place, same] at above
            exact UInt64.lt_irrefl _ above
        rw [if_pos same, if_pos same, absent]
        rfl
      · rw [if_neg same, if_neg same]

def collapsed (layout : PropertyLayout) (values : List (List α)) : List (List α) :=
  if layout.folds then merged layout.aggregations values else values

theorem valuesAtArrange (layout : PropertyLayout) (rows : List (Row α)) (target : UInt64) :
    valuesAt target (arrange layout rows) = collapsed layout (valuesAt target rows) := by
  unfold arrange collapsed
  split
  · rw [← valuesAtSort target rows]
    have ascending := sortAscending rows
    cases hs : sort rows with
    | nil => rfl
    | cons row rest =>
      rw [hs] at ascending
      exact valuesAtAbsorb layout.aggregations ascending target
  · exact valuesAtSort target rows

theorem arrangeTargets (layout : PropertyLayout) (rows : List (Row α)) (target : UInt64) :
    target ∈ (arrange layout rows).map Row.target ↔ target ∈ rows.map Row.target := by
  rw [← not_iff_not, ← valuesAtEmpty, ← valuesAtEmpty, valuesAtArrange]
  unfold collapsed
  split
  · cases valuesAt target rows <;> simp [merged]
  · rfl

theorem arrangeAscending (layout : PropertyLayout) (rows : List (Row α)) :
    ((arrange layout rows).map Row.target).Pairwise (· ≤ ·) := by
  unfold arrange
  have ascending := sortAscending rows
  split
  · cases hs : sort rows with
    | nil => simp [foldRuns]
    | cons row rest =>
      rw [hs] at ascending
      exact (absorbAscending layout.aggregations ascending).imp UInt64.le_of_lt
  · exact List.pairwise_map.mpr ascending

theorem arrangeFolded {layout : PropertyLayout} (folds : layout.folds = true)
    (rows : List (Row α)) : ((arrange layout rows).map Row.target).Pairwise (· < ·) := by
  rw [arrange, if_pos folds]
  have ascending := sortAscending rows
  cases hs : sort rows with
  | nil => simp [foldRuns]
  | cons row rest =>
    rw [hs] at ascending
    exact absorbAscending layout.aggregations ascending

theorem arrangeKept {layout : PropertyLayout} (keeps : layout.folds = false)
    (rows : List (Row α)) : (arrange layout rows).Perm rows := by
  rw [arrange, if_neg (by simp [keeps])]
  exact sortPerm rows

theorem arrangeShort (layout : PropertyLayout) (rows : List (Row α)) :
    (arrange layout rows).length ≤ rows.length := by
  cases folds : layout.folds with
  | false => exact Nat.le_of_eq (arrangeKept folds rows).length_eq
  | true =>
    have distinct : ((arrange layout rows).map Row.target).Nodup :=
      (arrangeFolded folds rows).imp fun below => UInt64.ne_of_lt below
    have kept : (arrange layout rows).map Row.target ⊆ rows.map Row.target :=
      fun target => (arrangeTargets layout rows target).mp
    have short := (List.subperm_of_subset distinct kept).length_le
    rwa [List.length_map, List.length_map] at short

end Folding
end CommunityGraph.Row
