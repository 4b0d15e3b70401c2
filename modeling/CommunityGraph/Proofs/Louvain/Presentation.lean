import CommunityGraph.Proofs.Louvain.Levels

/-! Options of presentation. Taking a snapshot searches for the roots of all nodes and so moves parents while
the search goes on, but neither that nor numbering the labels shows in what is found. -/
namespace CommunityGraph.Louvain
variable {α : Type}

structure Recast (c c' : LouvainConfig α) (r r' : LouvainResult α) : Prop where
  modularities : r.modularities = r'.modularities
  modularity : r.modularity = r'.modularity
  ranLevels : r.ranLevels = r'.ranLevels
  didConverge : r.didConverge = r'.didConverge
  partition : Alike r.communities r'.communities
  unchanged : c.consecutiveIds = c'.consecutiveIds → r.communities = r'.communities
  numbered : c.consecutiveIds = false → c'.consecutiveIds = true →
    r'.communities = renumber r.communities
  taken : r.intermediate.isSome = c.includeIntermediate ∧
    r'.intermediate.isSome = c'.includeIntermediate
  snapshots : ∀ snapshots ∈ r.intermediate, ∀ snapshots' ∈ r'.intermediate,
    (c.consecutiveIds = c'.consecutiveIds → snapshots = snapshots') ∧
      (c.consecutiveIds = false → c'.consecutiveIds = true →
        snapshots' = snapshots.map renumber)

theorem shownNumbered (n : Nat) (stage : Stage α) :
    shown true n stage = renumber (shown false n stage) := rfl

theorem Reports.taken {c : LouvainConfig α} {n : Nat} {last : Stage α} {stages : List (Stage α)}
    {r : LouvainResult α} (reports : Reports c n last stages r) :
    r.intermediate.isSome = c.includeIntermediate := by
  rw [reports.intermediate]
  cases c.includeIntermediate <;> rfl

theorem Reports.snapshot {c : LouvainConfig α} {n : Nat} {last : Stage α} {stages : List (Stage α)}
    {r : LouvainResult α} (reports : Reports c n last stages r) {snapshots : List (List Nat)}
    (given : snapshots ∈ r.intermediate) : snapshots = stages.map (shown c.consecutiveIds n) := by
  rw [reports.intermediate] at given
  split at given
  · exact (Option.some.inj given).symm
  · cases given

theorem Reports.recast {c c' : LouvainConfig α} {n : Nat} {last : Stage α}
    {stages : List (Stage α)} {r r' : LouvainResult α} (reports : Reports c n last stages r)
    (reports' : Reports c' n last stages r') (converged : r.didConverge = r'.didConverge) :
    Recast c c' r r' where
  modularities := reports.modularities.trans reports'.modularities.symm
  modularity := reports.modularity.trans reports'.modularity.symm
  ranLevels := reports.ranLevels.trans reports'.ranLevels.symm
  didConverge := converged
  partition := by
    rw [reports.communities, reports'.communities]
    exact (shownAlike _ n last).symm.trans (shownAlike _ n last)
  unchanged same := by rw [reports.communities, reports'.communities, same]
  numbered plain consecutive := by
    rw [reports.communities, reports'.communities, plain, consecutive, shownNumbered]
  taken := ⟨reports.taken, reports'.taken⟩
  snapshots first given second given' := by
    obtain rfl := reports.snapshot given
    obtain rfl := reports'.snapshot given'
    refine ⟨fun same => by rw [same], fun plain consecutive => ?_⟩
    rw [plain, consecutive, List.map_map]
    exact List.map_congr_left fun stage _ => shownNumbered n stage

section Results
variable [Weight α] {g : Graph α} {c c' : LouvainConfig α}

theorem presentationUnseen (made : g.Made)
    (differ : c' = presenting c c'.consecutiveIds c'.includeIntermediate) :
    Run.Follows (Recast c c') (compute g c) (compute g c') := by
  have follows := computeFollows made c c'.consecutiveIds c'.includeIntermediate
  rw [← differ] at follows
  refine follows.imp ?_
  rintro r r' ⟨converged, network, last, stages, -, -, -, reports, reports'⟩
  exact reports.recast reports' converged

def samplePairs : List (Addition Rat) := [.internal 0 1 [2], .internal 3 2 [1]]

theorem samplePresented : ∃ (g : Graph Rat) (r r' : LouvainResult Rat) (j : Journal), g.Made ∧
    compute g (presenting sampleSearch false true) .always .empty = (.ok r, j) ∧
    compute g (presenting sampleSearch true false) .always .empty = (.ok r', j) ∧
    r.communities = [0, 0, 2, 2] ∧ r'.communities = [0, 0, 1, 1] ∧
    Recast (presenting sampleSearch false true) (presenting sampleSearch true false) r r' := by
  have works : (outcome (.direct 4) ⟨.natural, .none, [.weight], false, false, 1, 8⟩ samplePairs
      (presenting sampleSearch false true)).toOption.map LouvainResult.communities =
        some [0, 0, 2, 2] := by
    unfold outcome compute levels
    simp only [judge, renumberPlaces]
    cbv
  obtain ⟨g, r, j, made, ran, labels⟩ := outcomeMade (IdMap.directDense (by decide)) works
  have follows : Run.Follows (Recast _ _) (compute g (presenting sampleSearch false true))
      (compute g (presenting sampleSearch true false)) := presentationUnseen made rfl
  obtain ⟨r', ran', recast⟩ := follows.ok ran
  have numbered := recast.numbered rfl rfl
  rw [labels, renumberPlaces] at numbered
  exact ⟨g, r, r', j, made, ran, ran', labels, numbered.trans (by cbv), recast⟩

end Results
end CommunityGraph.Louvain
