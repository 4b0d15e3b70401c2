import Mathlib.Algebra.Order.Ring.Rat
import CommunityGraph.Aggregation

/-! What an accepted layout is like, and which policies come to the same value in any order. -/
namespace CommunityGraph

namespace PropertyLayout
variable {keys : List String} {aggregations : List Aggregation} {topology : Aggregation}
  {layout : PropertyLayout}

theorem makeOk (made : make keys aggregations topology = .ok layout) :
    layout = ⟨keys, aggregations, topology⟩ ∧ keys.length = aggregations.length ∧
      requireUniform keys aggregations = .ok () := by
  unfold make at made
  split at made
  · cases made
  · rename_i even
    split at made
    · cases made
    · rename_i uniform
      exact ⟨(Except.ok.inj made).symm, Decidable.not_not.mp even, uniform⟩

theorem makeLayout (made : make keys aggregations topology = .ok layout) :
    layout = ⟨keys, aggregations, topology⟩ :=
  (makeOk made).1

theorem makeEven (made : make keys aggregations topology = .ok layout) :
    layout.aggregations.length = layout.propertyCount := by
  obtain ⟨rfl, even, -⟩ := makeOk made
  exact even.symm

theorem uniformFolds (uniform : requireUniform keys aggregations = .ok ())
    {first : Aggregation} (member : first ∈ aggregations) (folds : first.folds = true) :
    ∀ a ∈ aggregations, a.folds = true := by
  have one : 0 < aggregations.countP Aggregation.folds :=
    List.countP_pos_iff.mpr ⟨first, member, folds⟩
  unfold requireUniform at uniform
  dsimp only at uniform
  split at uniform
  · rename_i all
    exact List.countP_eq_length.mp (all.resolve_left (Nat.ne_of_gt one))
  · cases uniform

theorem makeFolds (made : make keys aggregations topology = .ok layout)
    (folds : layout.folds = true) : ∀ a ∈ layout.aggregations, a.folds = true := by
  obtain ⟨rfl, -, uniform⟩ := makeOk made
  cases aggregations with
  | nil => simp
  | cons first rest => exact uniformFolds uniform (by simp) folds

theorem makeFoldsAny (made : make keys aggregations topology = .ok layout) {a : Aggregation}
    (member : a ∈ layout.aggregations) (folds : a.folds = true) : layout.folds = true := by
  obtain ⟨rfl, -, uniform⟩ := makeOk made
  cases aggregations with
  | nil => cases member
  | cons first rest => exact uniformFolds uniform member folds first (by simp)

end PropertyLayout

namespace Aggregation

theorem foldSingle {α : Type} [Weight α] (values : List α) :
    Aggregation.single.fold? values = values.head? := by
  have kept : ∀ (rest : List α) (first : α), rest.foldl Aggregation.single.merge first = first := by
    intro rest first
    induction rest with
    | nil => rfl
    | cons _ _ ih => exact ih
  cases values with
  | nil => rfl
  | cons first rest => exact congrArg some (kept rest first)

theorem mergeSwapped {a : Aggregation} (folds : a.folds = true) (orderless : a ≠ .single)
    (x y : Rat) : a.merge x y = a.merge y x := by
  cases a with
  | none => cases folds
  | sum => exact Rat.add_comm x y
  | min =>
    simp only [merge, Weight.least]
    grind
  | max =>
    simp only [merge, Weight.greatest]
    grind
  | single => exact absurd rfl orderless

theorem mergeExchanged {a : Aggregation} (folds : a.folds = true) (orderless : a ≠ .single)
    (x y z : Rat) : a.merge (a.merge z x) y = a.merge (a.merge z y) x := by
  cases a with
  | none => cases folds
  | sum => exact add_right_comm z x y
  | min =>
    simp only [merge, Weight.least]
    grind
  | max =>
    simp only [merge, Weight.greatest]
    grind
  | single => exact absurd rfl orderless

theorem foldPerm {a : Aggregation} (folds : a.folds = true) (orderless : a ≠ .single)
    {xs ys : List Rat} (same : xs.Perm ys) : a.fold? xs = a.fold? ys := by
  have exchanged : ∀ x y z : Rat, a.merge (a.merge z x) y = a.merge (a.merge z y) x :=
    mergeExchanged folds orderless
  induction same with
  | nil => rfl
  | cons x same _ =>
    exact congrArg some (same.foldl_eq' (fun y _ z _ w => exchanged y z w) x)
  | swap x y rest => simp only [fold?, List.foldl_cons, mergeSwapped folds orderless x y]
  | trans _ _ first second => exact first.trans second

end Aggregation

end CommunityGraph
