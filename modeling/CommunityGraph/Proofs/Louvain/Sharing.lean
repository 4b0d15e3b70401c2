import CommunityGraph.Proofs.Louvain.Modularities

/-! How the work of a search is shared among workers, and in how large batches, is not seen in what it
answers: decisions are made for a whole class at once, and sums are the same in any order. -/
namespace CommunityGraph

namespace LocalMoving
variable {α : Type} [Weight α]

def sharing (s : Setting α) (concurrency minBatchSize : Nat) : Setting α :=
  { s with concurrency := concurrency, minBatchSize := minBatchSize }

variable (s : Setting α) (concurrency minBatchSize : Nat)

theorem sweepAgree (classes : List (List Nat)) (moves : Nat) (a : Assignment α)
    (decisions : Array Nat) :
    Run.Agree (fun x y => x = y) (sweep s classes moves a decisions)
      (sweep (sharing s concurrency minBatchSize) classes moves a decisions) := by
  induction classes generalizing moves a decisions with
  | nil => exact Run.Agree.pure rfl
  | cons members classes ih =>
    have passed : Run.Agree (fun x y => x = y) (passClass s members moves a decisions)
        (passClass (sharing s concurrency minBatchSize) members moves a decisions) :=
      Run.agreeEnds (passClassAnswers s members moves a decisions)
        (passClassAnswers (sharing s concurrency minBatchSize) members moves a decisions)
        fun _ _ first second => first.trans second.symm
    refine passed.bind ?_
    rintro ⟨moves, a, decisions⟩ _ rfl
    exact ih moves a decisions

theorem sweepsAgree (classes : List (List Nat)) (left number : Nat) (a : Assignment α)
    (decisions : Array Nat) :
    Run.Agree (fun x y => x = y) (sweeps s classes left number a decisions)
      (sweeps (sharing s concurrency minBatchSize) classes left number a decisions) := by
  induction left generalizing number a decisions with
  | zero => exact Run.Agree.pure rfl
  | succ left ih =>
    refine (sweepAgree s concurrency minBatchSize classes 0 a decisions).bind ?_
    rintro ⟨moves, a, decisions⟩ _ rfl
    refine Run.Agree.after ?_
    split
    · exact Run.Agree.pure rfl
    · exact ih _ a decisions

theorem runAgree (coloring : Coloring) (maxSweeps : Nat) :
    Run.Agree (fun x y => x = y) (run s coloring maxSweeps)
      (run (sharing s concurrency minBatchSize) coloring maxSweeps) := by
  refine (sweepsAgree s concurrency minBatchSize _ maxSweeps 0 _ _).bind ?_
  rintro a _ rfl
  exact Run.Agree.pure rfl

end LocalMoving

namespace Louvain

section Unique
variable {count : Nat} {links arrivals arrivals' : List (Link Rat)} {next next' : Network Rat}

theorem Summed.weightsSame (summed : Summed count links arrivals next)
    (summed' : Summed count links arrivals' next') {source target : Nat} (hs : source < count)
    (ht : target < count) : next.between source target = next'.between source target := by
  have arrived : arrivals.Perm arrivals' := summed.arrived.trans summed'.arrived.symm
  have values := ((arrived.filter fun link => link.source = source ∧ link.target = target).map
    Link.values).filterMap fun values => values[0]?
  rw [summed.weights source hs target ht, summed'.weights source hs target ht]
  exact congrArg Option.toList (Aggregation.foldPerm rfl (by decide) values)

theorem Summed.entries (summed : Summed count links arrivals next)
    (summed' : Summed count links arrivals' next') (source : Nat) {entry : Nat × Rat}
    (member : entry ∈ next.row source) : entry ∈ next'.row source := by
  have there : entry.1 ∈ next.targets source := List.mem_map_of_mem member
  have small := Network.sourceInside there
  have inside := summed.inside source entry.1 there
  rw [summed.nodes] at small inside
  have weight : entry.2 ∈ next.between source entry.1 := Network.memBetween.mpr member
  rw [summed.weightsSame summed' small inside] at weight
  exact Network.memBetween.mp weight

theorem Summed.unique (summed : Summed count links arrivals next)
    (summed' : Summed count links arrivals' next') : next = next' := by
  let before (x y : Nat × Rat) : Prop := x.1 < y.1
  have irrefl : Std.Irrefl before := ⟨fun x => Nat.lt_irrefl x.1⟩
  have antisymm : Std.Antisymm before :=
    ⟨fun x y less greater => absurd greater (Nat.lt_asymm less)⟩
  have rows : ∀ source, next.row source = next'.row source := fun source =>
    List.Pairwise.eq_of_mem_iff (List.pairwise_map.mp (summed.ascending source))
      (List.pairwise_map.mp (summed'.ascending source)) fun entry =>
        ⟨summed.entries summed' source, summed'.entries summed source⟩
  have size : next.rows.size = next'.rows.size := summed.nodes.trans summed'.nodes.symm
  obtain ⟨array⟩ := next
  obtain ⟨array'⟩ := next'
  refine congrArg Network.mk (Array.ext size fun source small small' => ?_)
  simpa [Network.row, small, small'] using rows source

end Unique

def sharing {α : Type} (c : LouvainConfig α) (concurrency minBatchSize : Nat) : LouvainConfig α :=
  { c with concurrency := concurrency, minBatchSize := minBatchSize }

def Level.counting {α : Type} (level : Level α) (relationshipCount : Nat) : Level α :=
  { level with relationshipCount := relationshipCount }

section Agree
variable {c : LouvainConfig Rat} {g g' : Graph Rat} {concurrency minBatchSize : Nat}

theorem ofGraphCounting (same : g.network = g'.network) (representatives : Array Nat) :
    Level.ofGraph g' representatives =
      (Level.ofGraph g representatives).counting g'.relationshipCount := by
  simp only [Level.ofGraph, Level.counting, same]

theorem ofGraphDegrees (g : Graph Rat) (representatives : Array Nat) :
    (Level.ofGraph g representatives).degrees.size = g.network.nodeCount := by
  simp [Level.ofGraph, Network.weightedDegrees, Network.nodeCount]

theorem collapseAgree {network : Network Rat} {dense : Array Nat} {count : Nat}
    (words : count ≤ UInt64.size) (inside : network.Inside)
    (renamed : ∀ node < network.nodeCount, dense.getD node 0 < count) :
    Run.Agree (fun g g' => g.network = g'.network ∧ g.network.nodeCount = count ∧ g.network.Inside)
      (collapse network dense count c)
      (collapse network dense count (sharing c concurrency minBatchSize)) := by
  refine Run.agreeEnds (collapseEnds words inside renamed c)
    (collapseEnds words inside renamed (sharing c concurrency minBatchSize)) ?_
  rintro g g' ⟨-, arrivals, summed⟩ ⟨-, arrivals', summed'⟩
  exact ⟨summed.unique summed', summed.nodes, summed.inside⟩

theorem levelsAgree (total : Rat) (left number : Nat) (before : SearchState) {level : Level Rat}
    (f : Findings Rat) (words : level.network.nodeCount ≤ UInt64.size)
    (inside : level.network.Inside) (degrees : level.degrees.size = level.network.nodeCount)
    (relationshipCount : Nat) :
    Run.Agree (fun x y => x = y) (levels c total left number before level f)
      (levels (sharing c concurrency minBatchSize) total left number before
        (level.counting relationshipCount) f) := by
  induction left using Nat.strongRecOn generalizing number before level f relationshipCount with
  | ind left ih =>
  let setting : LocalMoving.Setting Rat :=
    ⟨level.network, level.degrees, total, c.concurrency, c.minBatchSize⟩
  have moving := (LocalMoving.runAgree setting concurrency minBatchSize c.coloring
    c.maxLocalIterations).ends fun t =>
      LocalMoving.runEnds inside degrees c.coloring c.maxLocalIterations t
  unfold levels
  refine Run.Agree.after (Run.Agree.after ?_)
  refine (moving.phase _ _ _).bind ?_
  rintro communities _ ⟨rfl, fitting⟩
  have judging : judge (level.counting relationshipCount) total f.previous communities =
      judge level total f.previous communities := rfl
  rw [judging]
  cases judged : judge level total f.previous communities with
  | unchanged => exact Run.Agree.after (Run.Agree.after (Run.Agree.pure rfl))
  | lowered => exact Run.Agree.after (Run.Agree.after (Run.Agree.pure rfl))
  | applied current gain dense count =>
    refine Run.Agree.after ?_
    have tolerance : (sharing c concurrency minBatchSize).tolerance = c.tolerance := rfl
    rw [tolerance]
    split
    · exact Run.Agree.after (Run.Agree.pure rfl)
    · cases left with
      | zero => exact Run.Agree.after (Run.Agree.pure rfl)
      | succ left =>
        have numbers := judgeNumbers fitting judged
        have fewer : count ≤ level.network.nodeCount := by
          obtain ⟨-, rfl, -⟩ := judgeApplied judged
          have length : communities.length = level.network.nodeCount := by simpa using fitting.size
          rw [renumberBound, ← length]
          exact distinctLe communities
        have small := Nat.le_trans fewer words
        refine ((collapseAgree small inside numbers.small).phase _ _ _).bind ?_
        rintro next next' ⟨same, nodes, within⟩
        rw [ofGraphCounting same]
        exact ih left (Nat.lt_succ_self left) _ _ _ (Nat.le_trans (Nat.le_of_eq nodes) small) within
          (ofGraphDegrees next _) _

def Copied (g copy copy' : Graph Rat) : Prop :=
  copy.network = copy'.network ∧ copy.network.nodeCount = g.nodeCount ∧ copy.network.Inside

theorem symmetricCopyAgree (made : g.Made) :
    Run.Agree (Copied g) (symmetricCopy g c)
      (symmetricCopy g (sharing c concurrency minBatchSize)) := by
  refine Run.agreeEnds (symmetricCopyEnds made.words made.inside c)
    (symmetricCopyEnds made.words made.inside (sharing c concurrency minBatchSize)) ?_
  rintro copy copy' ⟨-, arrivals, summed⟩ ⟨-, arrivals', summed'⟩
  exact ⟨summed.unique summed', summed.nodes, summed.inside⟩

theorem firstLevelAgree (made : g.Made) :
    Run.Agree (fun first first' => first.1.network.nodeCount = g.nodeCount ∧
        first.1.network.Inside ∧ first.1.degrees.size = first.1.network.nodeCount ∧
        ∃ relationshipCount, first' = (first.1.counting relationshipCount, first.2))
      (firstLevel g c) (firstLevel g (sharing c concurrency minBatchSize)) := by
  have given : Run.Agree (Copied g) (pure g : Run (Graph Rat)) (pure g : Run (Graph Rat)) :=
    Run.Agree.pure ⟨rfl, Graph.networkNodes g, made.inside⟩
  have copied : Run.Agree (Copied g) (symmetricCopy g c)
      (symmetricCopy g (sharing c concurrency minBatchSize)) := symmetricCopyAgree made
  unfold firstLevel
  dsimp only
  split <;> [refine given.bind ?_; refine copied.bind ?_] <;>
    · rintro copy copy' ⟨same, nodes, inside⟩
      rw [ofGraphCounting same]
      exact Run.Agree.after (Run.Agree.pure ⟨nodes, inside, ofGraphDegrees copy _, _, rfl⟩)

theorem computeAgree (made : g.Made) :
    Run.Agree (fun r r' => r = r') (compute g c)
      (compute g (sharing c concurrency minBatchSize)) := by
  unfold compute
  refine Run.Agree.after (((firstLevelAgree made).phase _ _ _).bind ?_)
  rintro ⟨level, total, modularity⟩ _ ⟨nodes, inside, degrees, relationshipCount, rfl⟩
  refine (levelsAgree total _ _ _ _ (nodes ▸ made.words) inside degrees relationshipCount).bind ?_
  rintro ⟨converged, f⟩ _ rfl
  exact Run.Agree.after (Run.Agree.pure rfl)

end Agree

section Results
variable {g : Graph Rat} {c : LouvainConfig Rat} {concurrency minBatchSize : Nat}
  {r r' : LouvainResult Rat} {t t' : Termination} {j j' k k' : Journal}

theorem sharingUnseen (made : g.Made) (ran : compute g c t j = (.ok r, k))
    (ran' : compute g (sharing c concurrency minBatchSize) t' j' = (.ok r', k')) : r = r' :=
  computeAgree made r r' ⟨t, j, congrArg Prod.fst ran⟩ ⟨t', j', congrArg Prod.fst ran'⟩

theorem sampleShares : ∃ (g : Graph Rat) (r r' : LouvainResult Rat) (j j' : Journal), g.Made ∧
    compute g sampleSearch .always .empty = (.ok r, j) ∧
    compute g (sharing sampleSearch 3 1) .always .empty = (.ok r', j') ∧
    r.communities = [0, 0, 0] ∧ r = r' := by
  have works : ∀ c ∈ [sampleSearch, sharing sampleSearch 3 1],
      (outcome (.direct 3) ⟨.natural, .none, [.weight], false, false, 1, 8⟩
        [.internal 0 1 [2], .internal 2 1 [1]] c).toOption.map LouvainResult.communities =
        some [0, 0, 0] := by
    intro c member
    rcases List.mem_pair.mp member with rfl | rfl <;>
      · unfold outcome compute levels
        simp only [judge, renumberPlaces]
        cbv
  obtain ⟨relationships, r, j, built, ran, found⟩ := outcomeRan (works sampleSearch (by simp))
  obtain ⟨_, r', j', built', ran', -⟩ := outcomeRan (works (sharing sampleSearch 3 1) (by simp))
  cases built.symm.trans built'
  have made := builtMade (IdMap.directDense (by decide)) built
  exact ⟨_, r, r', j, j', made, ran, ran', found, sharingUnseen made ran ran'⟩

end Results
end Louvain
end CommunityGraph
