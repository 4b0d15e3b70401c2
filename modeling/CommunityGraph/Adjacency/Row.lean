import CommunityGraph.Aggregation

/-! The relationships of one node as rows: a target and one value per property. Rows are sorted by
target, and parallel ones are folded from left to right. -/
namespace CommunityGraph

structure Row (α : Type) where
  target : UInt64
  values : List α
  deriving DecidableEq, Repr

namespace Row
variable {α : Type}

def ofColumns : List UInt64 → List (List α) → List (Row α)
  | [], _ => []
  | target :: targets, columns =>
      ⟨target, columns.filterMap List.head?⟩ :: ofColumns targets (columns.map List.tail)

def column (rows : List (Row α)) (property : Nat) : List α :=
  rows.filterMap fun row => row.values[property]?

def columns (propertyCount : Nat) (rows : List (Row α)) : List (List α) :=
  (List.range propertyCount).map (column rows)

def sort (rows : List (Row α)) : List (Row α) :=
  rows.mergeSort fun a b => a.target ≤ b.target

variable [Weight α]

def mergeValues : List Aggregation → List α → List α → List α
  | a :: as, x :: xs, y :: ys => a.merge x y :: mergeValues as xs ys
  | _, xs, _ => xs

def absorb (aggregations : List Aggregation) (row : Row α) : List (Row α) → List (Row α)
  | [] => [row]
  | other :: rest =>
      if other.target = row.target then
        absorb aggregations ⟨row.target, mergeValues aggregations row.values other.values⟩ rest
      else row :: absorb aggregations other rest

def foldRuns (aggregations : List Aggregation) : List (Row α) → List (Row α)
  | [] => []
  | row :: rows => absorb aggregations row rows

def arrange (layout : PropertyLayout) (rows : List (Row α)) : List (Row α) :=
  if layout.folds then foldRuns layout.aggregations (sort rows) else sort rows

def differences (previous : UInt64) : List UInt64 → List UInt64
  | [] => []
  | target :: targets => (target - previous) :: differences target targets

end Row
end CommunityGraph
