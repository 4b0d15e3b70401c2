import Mathlib
import CommunityGraph.Louvain.LocalMoving
import CommunityGraph.Proofs.Batch.Coverage
import CommunityGraph.Proofs.Graph.Reading
import CommunityGraph.Proofs.Numbering

/-! Where moving single nodes leads. A node takes its own label or that of a neighbour, so whatever the
scores say, its label stays the number of a node that it is linked to. -/
namespace CommunityGraph.LocalMoving
variable {α : Type}

def Fits (network : Network α) (node label : Nat) : Prop :=
  label < network.nodeCount ∧ Linked network.edges node label

structure Fitting (network : Network α) (communities : Array Nat) : Prop where
  size : communities.size = network.nodeCount
  fits : ∀ node < network.nodeCount, Fits network node (communities.getD node 0)

section Classes

theorem colorNodeSize (network : Network α) (order : List Nat) (colors : Array (Option Nat)) :
    (order.foldl (Coloring.colorNode network) colors).size = colors.size := by
  induction order generalizing colors with
  | nil => rfl
  | cons node order ih =>
    rw [List.foldl_cons, ih]
    simp [Coloring.colorNode]

theorem colorsLength (coloring : Coloring) (network : Network α) :
    (coloring.colors network).length = network.nodeCount := by
  simp [Coloring.colors, Coloring.inOrder, colorNodeSize]

theorem classInside {colors members : List Nat} (member : members ∈ colorClasses colors)
    {node : Nat} (there : node ∈ members) : node < colors.length := by
  rw [colorClasses, classifyMembers] at member
  obtain ⟨color, -, rfl⟩ := List.mem_map.mp member
  exact (List.getElem?_eq_some_iff.mp (membersOfMem.mp there)).1

theorem extractPicks (members : List Nat) (start size : Nat) :
    (members.toArray.extract start (start + size)).toList =
      (List.range' start size).filterMap fun index => members[index]? := by
  rw [Array.toList_extract, List.extract_eq_take_drop, Nat.add_sub_cancel_left]
  induction size generalizing start with
  | zero => simp
  | succ size ih =>
    rw [List.range'_succ, List.filterMap_cons, ← ih]
    cases found : members[start]? with
    | none =>
      have beyond := List.getElem?_eq_none_iff.mp found
      simp [List.drop_eq_nil_of_le beyond, List.drop_eq_nil_of_le (Nat.le_succ_of_le beyond)]
    | some member =>
      obtain ⟨small, rfl⟩ := List.getElem?_eq_some_iff.mp found
      rw [List.drop_eq_getElem_cons small, List.take_succ_cons]

theorem picksAll (members : List Nat) :
    ((List.range members.length).filterMap fun index => members[index]?) = members := by
  have whole := extractPicks members 0 members.length
  rw [← List.range_eq_range'] at whole
  simpa using whole.symm

theorem getDSet (xs : Array Nat) (i value j : Nat) :
    (xs.setIfInBounds i value).getD j 0 = if i = j ∧ i < xs.size then value else xs.getD j 0 := by
  simp only [Array.getD_eq_getD_getElem?, Array.getElem?_setIfInBounds]
  by_cases same : i = j
  · subst same
    by_cases inside : i < xs.size <;> simp [inside]
  · simp [same]

end Classes

section Choice
variable [Weight α] {network : Network α} {a : Assignment α} {communities : Array Nat}

theorem addWeightKeys (community : Nat) (weight : α) (weights : List (Nat × α)) (key : Nat) :
    key ∈ (addWeight community weight weights).map Prod.fst →
      key = community ∨ key ∈ weights.map Prod.fst := by
  induction weights with
  | nil => simp [addWeight]
  | cons first weights ih =>
    rw [addWeight]
    split
    · exact .inr
    · simp only [List.map_cons, List.mem_cons]
      rintro (here | later)
      · exact .inr (.inl here)
      · exact (ih later).imp_right .inr

theorem neighbourWeightsKeys (communities : Array Nat) (node : Nat) (row weights : List (Nat × α))
    (key : Nat) :
    key ∈ (neighbourWeights communities node row weights).map Prod.fst →
      key ∈ weights.map Prod.fst ∨ ∃ target ∈ row.map Prod.fst, key = communities.getD target 0 := by
  induction row generalizing weights with
  | nil => exact .inl
  | cons entry row ih =>
    obtain ⟨target, weight⟩ := entry
    intro member
    rcases ih _ member with before | ⟨other, there, same⟩
    · split at before
      · exact .inl before
      · rcases addWeightKeys _ _ _ _ before with new | old
        · exact .inr ⟨target, by simp, new⟩
        · exact .inl old
    · exact .inr ⟨other, by simp [there], same⟩

theorem betterOf (best other : Candidate α) :
    better best other = best ∨ better best other = other := by
  unfold better
  split
  · exact .inr rfl
  · exact .inl rfl

theorem bestMember (stay : Candidate α) (others : List (Candidate α)) :
    others.foldl better stay ∈ stay :: others := by
  induction others generalizing stay with
  | nil => simp
  | cons other others ih =>
    rw [List.foldl_cons]
    rcases betterOf stay other with same | same
    · rw [same]
      exact (List.mem_cons.mp (ih stay)).elim (fun here => by simp [here]) fun later => by simp [later]
    · rw [same]
      exact List.mem_cons_of_mem _ (ih other)

theorem chooseMember (stay : Candidate α) (others : List (Candidate α)) :
    choose stay others ∈ (stay :: others).map Candidate.community := by
  unfold choose
  dsimp only
  split
  · exact List.mem_map_of_mem (bestMember stay others)
  · simp

theorem candidateKeys (totals : Array α) (ratio : α) (current : Nat) (weights : List (Nat × α))
    {candidate : Candidate α} (member : candidate ∈ candidates totals ratio current weights) :
    candidate.community ∈ weights.map Prod.fst := by
  obtain ⟨entry, there, rfl⟩ := List.mem_map.mp member
  exact List.mem_map_of_mem (List.mem_of_mem_filter there)

theorem preferredNear (network : Network α) (a : Assignment α) (degrees : Array α) (total : α)
    (node : Nat) :
    preferredCommunity network a degrees total node = a.communities.getD node 0 ∨
      ∃ target ∈ network.targets node,
        preferredCommunity network a degrees total node = a.communities.getD target 0 := by
  unfold preferredCommunity
  dsimp only
  split
  · exact .inl rfl
  · generalize score : stayScore a.totals _ _ _ _ = stay
    generalize found : candidates a.totals _ _ _ = others
    obtain ⟨candidate, member, same⟩ :=
      List.mem_map.mp (chooseMember ⟨a.communities.getD node 0, stay⟩ others)
    rw [← same]
    rcases List.mem_cons.mp member with rfl | other
    · exact .inl rfl
    · have key := candidateKeys _ _ _ _ (found ▸ other)
      exact .inr ((neighbourWeightsKeys _ _ _ _ _ key).resolve_left (by simp))

theorem Fitting.preferred (fitting : Fitting network a.communities) (inside : network.Inside)
    (degrees : Array α) (total : α) {node : Nat} (small : node < network.nodeCount) :
    Fits network node (preferredCommunity network a degrees total node) := by
  rcases preferredNear network a degrees total node with own | ⟨target, there, same⟩
  · exact own ▸ fitting.fits node small
  · rw [same]
    obtain ⟨bound, linked⟩ := fitting.fits target (inside _ _ there)
    exact ⟨bound, (Linked.edge (Network.memEdges.mpr there)).trans linked⟩

end Choice

section Moves
variable [Weight α] {network : Network α} {a : Assignment α} {decisions : Array Nat}

structure Decided (network : Network α) (nodes : List Nat) (decisions : Array Nat) : Prop where
  size : decisions.size = network.nodeCount
  fits : ∀ node ∈ nodes, Fits network node (decisions.getD node 0)

theorem decideFits (fitting : Fitting network a.communities) (inside : network.Inside)
    (degrees : Array α) (total : α) {nodes before : List Nat}
    (small : ∀ node ∈ nodes, node < network.nodeCount) (decided : Decided network before decisions) :
    Decided network (before ++ nodes) (decide network a degrees total nodes decisions) := by
  induction nodes generalizing before decisions with
  | nil => simpa [decide] using decided
  | cons node nodes ih =>
    have next : Decided network (before ++ [node])
        (decisions.setIfInBounds node (preferredCommunity network a degrees total node)) := by
      refine ⟨by simp [decided.size], fun other member => ?_⟩
      rw [getDSet]
      split
      · rename_i here
        rw [← here.1]
        exact fitting.preferred inside degrees total (small node (by simp))
      · rename_i elsewhere
        rcases List.mem_append.mp member with old | new
        · exact decided.fits other old
        · refine absurd ⟨(List.mem_singleton.mp new).symm, ?_⟩ elsewhere
          exact decided.size ▸ small node (by simp)
    have rest := ih (fun other member => small other (List.mem_cons_of_mem _ member)) next
    simpa [decide] using rest

theorem moveFits (fitting : Fitting network a.communities) (degrees : Array α) {node : Nat}
    (fits : Fits network node (decisions.getD node 0)) :
    Fitting network (move degrees decisions node a).2.communities := by
  unfold move
  dsimp only
  split
  · exact fitting
  · refine ⟨by simp [fitting.size], fun other small => ?_⟩
    dsimp only
    rw [getDSet]
    split
    · rename_i here
      exact here.1 ▸ fits
    · exact fitting.fits other small

theorem moveAllKeeps {degrees : Array α} {Holds : Assignment α → Prop} {nodes : List Nat}
    (step : ∀ node ∈ nodes, ∀ a, Holds a → Holds (move degrees decisions node a).2) (moves : Nat)
    (holds : Holds a) : Holds (moveAll degrees decisions nodes moves a).2 := by
  induction nodes generalizing a moves with
  | nil => exact holds
  | cons node nodes ih =>
    rw [moveAll]
    exact ih (fun other member => step other (List.mem_cons_of_mem _ member)) _
      (step node (by simp) a holds)

theorem moveAllFits (fitting : Fitting network a.communities) (degrees : Array α) {nodes : List Nat}
    (fits : ∀ node ∈ nodes, Fits network node (decisions.getD node 0)) (moves : Nat) :
    Fitting network (moveAll degrees decisions nodes moves a).2.communities := by
  have step : ∀ node ∈ nodes, ∀ a : Assignment α, Fitting network a.communities →
      Fitting network (move degrees decisions node a).2.communities :=
    fun node member a fitting => moveFits fitting degrees (fits node member)
  exact moveAllKeeps step moves fitting

variable {s : Setting α}

structure Moving (s : Setting α) (a : Assignment α) (decisions : Array Nat) : Prop where
  fitting : Fitting s.network a.communities
  decisions : decisions.size = s.network.nodeCount

theorem decideAppend (network : Network α) (a : Assignment α) (degrees : Array α) (total : α)
    (first second : List Nat) (decisions : Array Nat) :
    decide network a degrees total (first ++ second) decisions =
      decide network a degrees total second (decide network a degrees total first decisions) := by
  induction first generalizing decisions with
  | nil => rfl
  | cons node first ih => exact ih _

theorem passClassAnswers (s : Setting α) (members : List Nat) (moves : Nat) (a : Assignment α)
    (decisions : Array Nat) (t : Termination) :
    Run.Ends t (fun _ => False)
      (fun answer =>
        let decided := decide s.network a s.degrees s.total members decisions
        let moved := moveAll s.degrees decided members moves a
        answer = (moved.1, moved.2, decided))
      (passClass s members moves a decisions) := by
  have adds : BatchQueue.Adds (decideBatch s members.toArray a)
      (fun before decided => decided = decide s.network a s.degrees s.total
        (before.filterMap fun index => members[index]?) decisions) (fun _ => False) := by
    rintro batch before _ t j rfl
    simp only [decideBatch, Batch.stop, extractPicks, List.filterMap_append, decideAppend]
    rfl
  have covers := BatchQueue.consecutiveCovers members.length s.minBatchSize s.concurrency
  unfold passClass
  refine (covers.ends adds s.concurrency rfl t).bind fun decided same => ?_
  rw [picksAll] at same
  subst same
  exact Run.Ends.pure rfl

theorem passClassEnds {members : List Nat} (inside : s.network.Inside)
    (small : ∀ node ∈ members, node < s.network.nodeCount) (moves : Nat) {a : Assignment α}
    {decisions : Array Nat} (moving : Moving s a decisions) (t : Termination) :
    Run.Ends t (fun _ => False) (fun answer => Moving s answer.2.1 answer.2.2)
      (passClass s members moves a decisions) := by
  have undecided : Decided s.network [] decisions := ⟨moving.decisions, by simp⟩
  have decided := decideFits moving.fitting inside s.degrees s.total small undecided
  refine (passClassAnswers s members moves a decisions t).imp ?_
  rintro answer rfl
  exact ⟨moveAllFits moving.fitting s.degrees decided.fits moves, decided.size⟩

theorem sweepEnds {classes : List (List Nat)} (inside : s.network.Inside)
    (small : ∀ members ∈ classes, ∀ node ∈ members, node < s.network.nodeCount) (moves : Nat)
    {a : Assignment α} {decisions : Array Nat} (moving : Moving s a decisions) (t : Termination) :
    Run.Ends t (fun _ => False) (fun answer => Moving s answer.2.1 answer.2.2)
      (sweep s classes moves a decisions) := by
  induction classes generalizing moves a decisions with
  | nil => exact Run.Ends.pure moving
  | cons members classes ih =>
    refine (passClassEnds inside (small members (by simp)) moves moving t).bind ?_
    rintro ⟨moves, a, decisions⟩ moving
    exact ih (fun members member => small members (List.mem_cons_of_mem _ member)) moves moving

theorem sweepsEnds {classes : List (List Nat)} (inside : s.network.Inside)
    (small : ∀ members ∈ classes, ∀ node ∈ members, node < s.network.nodeCount) (left number : Nat)
    {a : Assignment α} {decisions : Array Nat} (moving : Moving s a decisions) (t : Termination) :
    Run.Ends t (fun _ => False) (fun a => Fitting s.network a.communities)
      (sweeps s classes left number a decisions) := by
  induction left generalizing number a decisions with
  | zero => exact Run.Ends.pure moving.fitting
  | succ left ih =>
    refine (sweepEnds inside small 0 moving t).bind ?_
    rintro ⟨moves, a, decisions⟩ moving
    refine (Run.endsLog _ _ _).bind fun _ _ => ?_
    split
    · exact Run.Ends.pure moving.fitting
    · exact ih _ moving

theorem runEnds (inside : s.network.Inside) (degrees : s.degrees.size = s.network.nodeCount)
    (coloring : Coloring) (maxSweeps : Nat) (t : Termination) :
    Run.Ends t (fun _ => False) (fun communities => Fitting s.network communities.toArray)
      (run s coloring maxSweeps) := by
  have singletons : Moving s (.singletons s.degrees) (Array.replicate s.network.nodeCount 0) := by
    refine ⟨⟨by simp [Assignment.singletons, degrees], fun node small => ?_⟩, by simp⟩
    simp [Assignment.singletons, degrees, small, Fits, Linked.refl]
  have small : ∀ members ∈ colorClasses (coloring.colors s.network), ∀ node ∈ members,
      node < s.network.nodeCount := fun members member node there =>
    colorsLength coloring s.network ▸ classInside member there
  unfold run
  refine (sweepsEnds inside small maxSweeps 0 singletons t).bind fun a fitting => ?_
  exact Run.Ends.pure (by simpa using fitting)

end Moves
end CommunityGraph.LocalMoving
