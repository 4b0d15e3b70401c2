import CommunityGraph.Proofs.Louvain.Levels

/-! The hierarchy that a search reports: every level merges communities of the one before, so there are
fewer and fewer of them, and their labels are numbers of members or given one after the other. -/
namespace CommunityGraph.Louvain
open DisjointSet

structure Coarser (fine coarse : List Nat) : Prop where
  length : coarse.length = fine.length
  merged : ∀ u < fine.length, ∀ v < fine.length, fine[u]? = fine[v]? → coarse[u]? = coarse[v]?
  fewer : distinct coarse < distinct fine

theorem Coarser.congr {fine coarse fine' coarse' : List Nat} (coarser : Coarser fine coarse)
    (first : Alike fine fine') (second : Alike coarse coarse') : Coarser fine' coarse' where
  length := by rw [← first.length, ← second.length, coarser.length]
  merged u hu v hv same := by
    rw [← first.length] at hu hv
    have old := (first.same u hu v hv).mpr same
    exact (second.same u (coarser.length ▸ hu) v (coarser.length ▸ hv)).mp
      (coarser.merged u hu v hv old)
  fewer := by
    rw [← first.distinct, ← second.distinct]
    exact coarser.fewer

theorem chainDescends {β : Type} {size : β → Nat} {first last : β} {rest : List β}
    (chain : (first :: rest).IsChain fun a b => size b < size a)
    (ends : (first :: rest).getLast? = some last) : size last + rest.length ≤ size first := by
  induction rest generalizing first with
  | nil =>
    obtain rfl : first = last := by simpa using ends
    simp
  | cons next rest ih =>
    obtain ⟨less, chain⟩ := List.isChain_cons_cons.mp chain
    have bound := ih chain (by simpa [List.getLast?_cons_cons] using ends)
    rw [List.length_cons]
    omega

section Stages
variable {α : Type}

def Rooted (n : Nat) (stage : Stage α) : Prop :=
  ∀ node < n, stage.root node < n ∧ stage.root (stage.root node) = stage.root node

theorem Rooted.labels {n : Nat} {stage : Stage α} (rooted : Rooted n stage) :
    ∀ label ∈ labelsOf n stage, (labelsOf n stage)[label]? = some label := by
  intro label member
  obtain ⟨node, small, rfl⟩ := List.mem_map.mp member
  obtain ⟨inside, again⟩ := rooted node (List.mem_range.mp small)
  simp [labelsOf, inside, again]

variable [Weight α] {network : Network α} {total : α} {before after : Stage α}

theorem Merges.fewerLabels {place : Nat → Nat} {level : Network α}
    {representatives communities : Array Nat}
    (merges : Merges network total before after place level representatives communities) :
    distinct (labelsOf network.nodeCount after) <
      distinct (labelsOf network.nodeCount before) := by
  have labels : distinct (labelsOf network.nodeCount after) = distinct communities.toList := by
    rw [labelsOf, (alikeRange merges.new).distinct, distinct, distinct]
    congr 1
    ext label
    simp only [List.mem_toFinset, List.mem_map, List.mem_range]
    constructor
    · rintro ⟨node, small, rfl⟩
      have inside := merges.stands.places node small
      rw [← merges.fitting.size] at inside
      simp [inside]
    · intro member
      obtain ⟨node, inside, rfl⟩ := Array.getElem_of_mem (Array.mem_toList_iff.mp member)
      have small := merges.fitting.size ▸ inside
      refine ⟨_, merges.stands.inside node small, ?_⟩
      rw [merges.stands.back node small]
      simp [inside]
  have nodes : distinct (labelsOf network.nodeCount before) = level.nodeCount :=
    merges.stands.distinct merges.old
  have most := distinctLe communities.toList
  have fewer := merges.fewer
  rw [Array.length_toList, merges.fitting.size] at most
  omega

theorem Advances.coarser (advances : Advances network total before after) :
    Coarser (labelsOf network.nodeCount before) (labelsOf network.nodeCount after) := by
  obtain ⟨place, level, representatives, communities, merges⟩ := advances.merges
  refine ⟨by rw [labelsLength, labelsLength], fun u hu v hv same => ?_, merges.fewerLabels⟩
  rw [labelsLength] at hu hv
  rw [labelsSame _ hu hv] at same ⊢
  have together := (merges.old u hu v hv).mp same
  exact (merges.new u hu v hv).mpr (by rw [together])

section Course
variable {start last : Stage α} {stages : List (Stage α)}

theorem Course.coarser (course : Course network total start last stages) (consecutive : Bool) :
    ((start :: stages).map (shown consecutive network.nodeCount)).IsChain Coarser := by
  refine (List.isChain_map _).mpr (course.chain.imp fun before after advances => ?_)
  exact advances.coarser.congr (shownAlike _ _ _) (shownAlike _ _ _)

theorem Course.short (course : Course network total start last stages)
    (some : 0 < network.nodeCount) : stages.length ≤ network.nodeCount - 1 := by
  let size (stage : Stage α) : Nat := distinct (labelsOf network.nodeCount stage)
  have chain : (start :: stages).IsChain fun before after => size after < size before :=
    course.chain.imp fun _ _ advances => advances.coarser.fewer
  have descends := chainDescends chain course.last
  have most : size start ≤ network.nodeCount :=
    (distinctLe _).trans_eq (labelsLength network.nodeCount start)
  have one : 0 < size last := distinctPos (List.mem_map_of_mem (List.mem_range.mpr some))
  omega

end Course
end Stages

section Results
variable {α : Type} [Weight α] {g : Graph α} {c : LouvainConfig α} {r : LouvainResult α}
  {t : Termination} {j j' : Journal}

theorem validateIterations (valid : c.validate = .ok ()) : 0 < c.maxIterations := by
  unfold LouvainConfig.validate at valid
  split at valid
  · obtain ⟨_, refused, _⟩ := bindOk valid
    cases refused
  · obtain ⟨_, iterations, _⟩ := bindOk valid
    exact requirePositiveOk iterations

theorem validateSweeps (valid : c.validate = .ok ()) : 0 < c.maxLocalIterations := by
  unfold LouvainConfig.validate at valid
  split at valid
  · obtain ⟨_, refused, _⟩ := bindOk valid
    cases refused
  · obtain ⟨_, _, valid⟩ := bindOk valid
    obtain ⟨_, sweeps, _⟩ := bindOk valid
    exact requirePositiveOk sweeps

structure Hierarchy (c : LouvainConfig α) (n : Nat) (r : LouvainResult α) : Prop where
  nodes : r.communities.length = n
  levels : r.modularities.length = r.ranLevels
  limit : r.ranLevels ≤ c.maxIterations
  fewer : 0 < n → r.ranLevels ≤ n - 1
  snapshots : c.includeIntermediate = true → ∃ snapshots, r.intermediate = some snapshots ∧
    snapshots.length = r.ranLevels ∧ (List.range n :: snapshots).IsChain Coarser ∧
    (List.range n :: snapshots).getLast? = some r.communities
  singletons : r.ranLevels = 0 → r.communities = List.range n
  representatives : c.consecutiveIds = false →
    ∀ labels ∈ r.communities :: r.intermediate.getD [], ∀ label ∈ labels, labels[label]? = some label
  consecutive : c.consecutiveIds = true →
    ∀ labels ∈ r.communities :: r.intermediate.getD [], Numbered labels

theorem hierarchyFormed (made : g.Made) (valid : c.validate = .ok ())
    (ran : compute g c t j = (.ok r, j')) : Hierarchy c g.nodeCount r := by
  obtain ⟨network, last, stages, searched, course, bound, reports⟩ := computeReports made ran
  rw [← searched.nodes]
  have presented := course.presented reports
  have first : shown c.consecutiveIds network.nodeCount (firstStage network) =
      List.range network.nodeCount := shownSingletons _ _ rfl
  have rooted : ∀ stage ∈ firstStage network :: stages, Rooted network.nodeCount stage :=
    course.always (fun node small => ⟨small, rfl⟩) fun _ _ advances _ => advances.rooted
  refine ⟨?_, ?_, ?_, fun some => ?_, fun intermediate => ?_, fun none => ?_, fun plain => ?_,
    fun consecutive => ?_⟩
  · rw [reports.communities, shownLength]
  · rw [reports.modularities, reports.ranLevels, List.length_map]
  · rw [reports.ranLevels]
    exact bound (validateIterations valid)
  · rw [reports.ranLevels]
    exact course.short some
  · refine ⟨stages.map (shown c.consecutiveIds network.nodeCount), ?_, ?_, ?_, ?_⟩
    · rw [reports.intermediate, if_pos intermediate]
    · rw [List.length_map, reports.ranLevels]
    · rw [← first, ← List.map_cons]
      exact course.coarser c.consecutiveIds
    · rw [← first, ← List.map_cons, List.getLast?_map, course.last, reports.communities]
      rfl
  · rw [reports.ranLevels] at none
    obtain rfl := List.eq_nil_of_length_eq_zero none
    have last : firstStage network = last := by simpa using course.last
    rw [reports.communities, ← last, first]
  · intro labels member
    obtain ⟨stage, there, rfl⟩ := presented labels member
    rw [plain]
    exact (rooted stage there).labels
  · intro labels member
    obtain ⟨stage, there, rfl⟩ := presented labels member
    rw [consecutive]
    exact renumberNumbered _

theorem sampleHierarchy : ∃ (g : Graph Rat) (r : LouvainResult Rat) (j : Journal), g.Made ∧
    sampleSearch.validate = .ok () ∧ compute g sampleSearch .always .empty = (.ok r, j) ∧
    r.communities = [0, 0, 0] ∧ Hierarchy sampleSearch g.nodeCount r := by
  obtain ⟨g, r, j, made, ran, labels⟩ := sampleRuns
  exact ⟨g, r, j, made, rfl, ran, labels, hierarchyFormed made rfl ran⟩

end Results
end CommunityGraph.Louvain
