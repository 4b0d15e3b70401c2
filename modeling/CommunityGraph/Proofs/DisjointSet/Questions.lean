import CommunityGraph.Proofs.DisjointSet.Operations

/-! Questions leave no trace. They move parents, so what two runs have in common is the root of each node;
that alone decides all that a call can answer, and unions pass it on. -/
namespace CommunityGraph.DisjointSet

def Answer.merged? : Answer → Option Bool
  | .merged apart => some apart
  | _ => none

def told (answers : List Answer) : List Bool := answers.filterMap Answer.merged?

def toldBy (n : Nat) (root : Nat → Nat) : List (Nat × Nat) → List Bool
  | [] => []
  | pair :: pairs => decide (root pair.1 ≠ root pair.2) :: toldBy n (joined n root pair) pairs

structure Indistinct (n : Nat) (d d' : DisjointSet) : Prop where
  roots : ∀ node < n, (d.find node).1 = (d'.find node).1
  tops : ∀ node < n, d.parent node = node ↔ d'.parent node = node
  sizes : ∀ node < n, d.parent node = node → d.size node = d'.size node
  answers : ∀ operations : List Operation,
    (∀ operation ∈ operations, ∀ node ∈ operation.nodes, node < n) →
      (d.performAll operations).1 = (d'.performAll operations).1

section Represents
variable {n : Nat} {root : Nat → Nat} {d d' : DisjointSet}

theorem Represents.answer (first : Represents n root d) (second : Represents n root d')
    {operation : Operation} (inside : ∀ node ∈ operation.nodes, node < n) :
    (d.perform operation).1 = (d'.perform operation).1 := by
  cases operation with
  | union a b =>
    have insideA : a < n := inside a (by simp [Operation.nodes])
    have insideB : b < n := inside b (by simp [Operation.nodes])
    exact congrArg Answer.merged
      ((first.union insideA insideB).1.trans (second.union insideA insideB).1.symm)
  | find node | setIdOf node =>
    have small : node < n := inside node (by simp [Operation.nodes])
    exact congrArg Answer.root ((first.find small).1.trans (second.find small).1.symm)
  | sameSet a b =>
    have insideA : a < n := inside a (by simp [Operation.nodes])
    have insideB : b < n := inside b (by simp [Operation.nodes])
    exact congrArg Answer.same
      ((first.sameSet insideA insideB).1.trans (second.sameSet insideA insideB).1.symm)
  | setSize node =>
    have small : node < n := inside node (by simp [Operation.nodes])
    exact congrArg Answer.amount ((first.setSize small).1.trans (second.setSize small).1.symm)
  | setCount => exact congrArg Answer.amount (first.setCount.trans second.setCount.symm)
  | communities =>
    exact congrArg Answer.labels (first.communities.1.trans second.communities.1.symm)
  | consecutiveIds =>
    have same : d.communities.1 = d'.communities.1 :=
      first.communities.1.trans second.communities.1.symm
    exact congrArg (fun labels => Answer.labels (renumber labels)) same

theorem Represents.answersAll (first : Represents n root d) (second : Represents n root d')
    {operations : List Operation}
    (inside : ∀ operation ∈ operations, ∀ node ∈ operation.nodes, node < n) :
    (d.performAll operations).1 = (d'.performAll operations).1 := by
  induction operations generalizing root d d' with
  | nil => rfl
  | cons operation operations ih =>
    have here := inside operation (by simp)
    have rest := ih (first.perform here).1 (second.perform here).1 fun other member =>
      inside other (List.mem_cons_of_mem _ member)
    simp only [DisjointSet.performAll, first.answer second here, rest]

theorem Represents.indistinct (first : Represents n root d) (second : Represents n root d') :
    Indistinct n d d' where
  roots node small := (first.find small).1.trans (second.find small).1.symm
  tops node small := (first.parentTop small).trans (second.parentTop small).symm
  sizes node small top := by
    have fixed := (first.parentTop small).mp top
    have size := (first.sizes node small).trans (second.sizes node small).symm
    rwa [fixed] at size
  answers _ inside := first.answersAll second inside

theorem Represents.told (represents : Represents n root d) {operations : List Operation}
    (inside : ∀ operation ∈ operations, ∀ node ∈ operation.nodes, node < n) :
    told (d.performAll operations).1 = toldBy n root (united operations) := by
  induction operations generalizing root d with
  | nil => rfl
  | cons operation operations ih =>
    have here := inside operation (by simp)
    have rest := ih (represents.perform here).1 fun other member =>
      inside other (List.mem_cons_of_mem _ member)
    have split : DisjointSet.told (d.performAll (operation :: operations)).1 =
        (d.perform operation).1.merged?.toList ++
          DisjointSet.told ((d.perform operation).2.performAll operations).1 := by
      simp only [DisjointSet.told, DisjointSet.performAll, List.filterMap_cons]
      cases (d.perform operation).1.merged? <;> rfl
    rw [split, rest]
    -- a question unites nothing and tells of no merge
    cases operation with
    | union a b =>
      have told := (represents.union (inside (.union a b) (by simp) a (by simp [Operation.nodes]))
        (inside (.union a b) (by simp) b (by simp [Operation.nodes]))).1
      simp only [DisjointSet.perform, Prod.map_fst, told]
      rfl
    | _ => rfl

end Represents

/-- With the same unions in the same order, whatever is asked in between, the sets come out the same. -/
theorem questionsUnseen (n : Nat) (operations others : List Operation)
    (inside : ∀ operation ∈ operations, ∀ node ∈ operation.nodes, node < n)
    (inside' : ∀ operation ∈ others, ∀ node ∈ operation.nodes, node < n)
    (same : united operations = united others) :
    Indistinct n ((make n).performAll operations).2 ((make n).performAll others).2 ∧
      told ((make n).performAll operations).1 = told ((make n).performAll others).1 := by
  have first := ((makeRepresents n).performAll inside).1
  have second := ((makeRepresents n).performAll inside').1
  rw [← same] at second
  refine ⟨first.indistinct second, ?_⟩
  rw [(makeRepresents n).told inside, (makeRepresents n).told inside', same]

def sampleUnions : List Operation := [.union 2 3, .union 0 1, .union 1 3, .union 2 0]

def sampleAsked : List Operation :=
  [.communities, .union 2 3, .union 0 1, .sameSet 1 2, .setCount, .union 1 3, .find 3,
    .consecutiveIds, .setSize 0, .union 2 0, .setIdOf 1]

theorem sampleUnseen :
    (∀ operation ∈ sampleUnions, ∀ node ∈ operation.nodes, node < 4) ∧
    (∀ operation ∈ sampleAsked, ∀ node ∈ operation.nodes, node < 4) ∧
    united sampleUnions = united sampleAsked ∧
    ((make 4).performAll sampleUnions).2.parents = #[0, 0, 0, 2] ∧
    ((make 4).performAll sampleAsked).2.parents = #[0, 0, 0, 0] ∧
    told ((make 4).performAll sampleAsked).1 = [true, true, true, false] ∧
    Indistinct 4 ((make 4).performAll sampleUnions).2 ((make 4).performAll sampleAsked).2 := by
  have inside : ∀ operation ∈ sampleUnions, ∀ node ∈ operation.nodes, node < 4 := by decide
  have inside' : ∀ operation ∈ sampleAsked, ∀ node ∈ operation.nodes, node < 4 := by decide
  obtain ⟨indistinct, same⟩ := questionsUnseen 4 sampleUnions sampleAsked inside inside' rfl
  have answers : told ((make 4).performAll sampleUnions).1 = [true, true, true, false] := by
    cbv
  have plain : ((make 4).performAll sampleUnions).2.parents = #[0, 0, 0, 2] := by cbv
  have asked : ((make 4).performAll sampleAsked).2.parents = #[0, 0, 0, 0] := by cbv
  exact ⟨inside, inside', rfl, plain, asked, same ▸ answers, indistinct⟩

end CommunityGraph.DisjointSet
