import CommunityGraph.Proofs.Louvain.Derived
import CommunityGraph.Proofs.Louvain.LocalMoving
import CommunityGraph.Proofs.Louvain.Merging

/-! The levels of a search, told by the roots that the input nodes have after each of them. Two searches
that differ only in how they present communities go through the same levels. -/
namespace CommunityGraph.Louvain
open DisjointSet
variable {α : Type}

structure Stage (α : Type) where
  root : Nat → Nat
  modularity : α

def labelsOf (n : Nat) (stage : Stage α) : List Nat := (List.range n).map stage.root

def shown (consecutive : Bool) (n : Nat) (stage : Stage α) : List Nat :=
  if consecutive then renumber (labelsOf n stage) else labelsOf n stage

section Shown

theorem labelsSame {n : Nat} (stage : Stage α) {u v : Nat} (hu : u < n) (hv : v < n) :
    (labelsOf n stage)[u]? = (labelsOf n stage)[v]? ↔ stage.root u = stage.root v := by
  simp [labelsOf, hu, hv]

theorem labelsLength (n : Nat) (stage : Stage α) : (labelsOf n stage).length = n := by
  simp [labelsOf]

theorem shownAlike (consecutive : Bool) (n : Nat) (stage : Stage α) :
    Alike (labelsOf n stage) (shown consecutive n stage) := by
  unfold shown
  split
  · exact (renumberAlike _).symm
  · exact Alike.refl _

theorem shownLength (consecutive : Bool) (n : Nat) (stage : Stage α) :
    (shown consecutive n stage).length = n :=
  (shownAlike consecutive n stage).length.symm.trans (labelsLength n stage)

theorem shownSame (consecutive : Bool) {n : Nat} (stage : Stage α) {u v : Nat} (hu : u < n)
    (hv : v < n) : (shown consecutive n stage)[u]? = (shown consecutive n stage)[v]? ↔
      stage.root u = stage.root v := by
  have length := labelsLength n stage
  rw [← labelsSame stage hu hv, (shownAlike consecutive n stage).same u (length.symm ▸ hu) v
    (length.symm ▸ hv)]

theorem shownSingletons (consecutive : Bool) (n : Nat) {stage : Stage α} (singletons : stage.root = id) :
    shown consecutive n stage = List.range n := by
  unfold shown labelsOf
  rw [singletons, List.map_id]
  split
  · exact renumberRange n
  · rfl

end Shown

structure Reached (c : LouvainConfig α) (n : Nat) (last : Stage α) (stages : List (Stage α))
    (f : Findings α) : Prop where
  sets : Represents n last.root f.sets
  previous : f.previous = last.modularity
  modularities : f.modularities = stages.map Stage.modularity
  ranLevels : f.ranLevels = stages.length
  snapshots : f.snapshots =
    if c.includeIntermediate then stages.map (shown c.consecutiveIds n) else []

structure Reports (c : LouvainConfig α) (n : Nat) (last : Stage α) (stages : List (Stage α))
    (r : LouvainResult α) : Prop where
  communities : r.communities = shown c.consecutiveIds n last
  modularities : r.modularities = stages.map Stage.modularity
  modularity : r.modularity = last.modularity
  ranLevels : r.ranLevels = stages.length
  intermediate : r.intermediate =
    if c.includeIntermediate then some (stages.map (shown c.consecutiveIds n)) else none

section Findings
variable {c : LouvainConfig α} {n : Nat} {last next : Stage α} {stages : List (Stage α)}
  {f : Findings α}

theorem presentShown {sets : DisjointSet} (c : LouvainConfig α)
    (represents : Represents n last.root sets) :
    (present c sets).1 = shown c.consecutiveIds n last ∧
      Represents n last.root (present c sets).2 := by
  obtain ⟨labels, after⟩ := represents.communities
  unfold present shown
  split
  · exact ⟨congrArg renumber labels, after⟩
  · exact ⟨labels, after⟩

theorem Reached.apply {level : Level α} {anchors : Array Nat} {dense : List Nat}
    (reached : Reached c n last stages f)
    (merged : Represents n next.root (merge level.representatives anchors dense f.sets)) :
    Reached c n next (stages ++ [next])
      (apply c (stages.length + 1) level anchors dense next.modularity f) := by
  obtain ⟨labels, after⟩ := presentShown c merged
  unfold Louvain.apply
  dsimp only
  split
  · rename_i intermediate
    refine ⟨after, rfl, by simp [reached.modularities], by simp, ?_⟩
    simp [intermediate, reached.snapshots, labels]
  · rename_i silent
    refine ⟨merged, rfl, by simp [reached.modularities], by simp, ?_⟩
    simp [silent, reached.snapshots]

theorem Reached.reports (reached : Reached c n last stages f) (converged : Bool) :
    Reports c n last stages ⟨(present c f.sets).1, f.modularities, f.previous, f.ranLevels, converged,
      if c.includeIntermediate then some f.snapshots else none⟩ where
  communities := (presentShown c reached.sets).1
  modularities := reached.modularities
  modularity := reached.previous
  ranLevels := reached.ranLevels
  intermediate := by
    dsimp only
    split
    · rename_i intermediate
      rw [reached.snapshots, if_pos intermediate]
    · rfl

end Findings

section Numbers
variable {network : Network α} {communities : List Nat}

theorem numbersOf (fitting : LocalMoving.Fitting network communities.toArray) :
    Numbers network.nodeCount (labelBound (renumber communities)) (renumber communities) := by
  have length : communities.length = network.nodeCount := by simpa using fitting.size
  exact length ▸ renumberNumbers communities

theorem numberOfSame (fitting : LocalMoving.Fitting network communities.toArray) {a b : Nat}
    (hA : a < network.nodeCount) (hB : b < network.nodeCount) :
    numberOf (renumber communities) a = numberOf (renumber communities) b ↔
      communities.toArray.getD a 0 = communities.toArray.getD b 0 := by
  have length : communities.length = network.nodeCount := by simpa using fitting.size
  have renumbered := (numbersOf fitting).length
  have same := (renumberAlike communities).same a (renumbered.symm ▸ hA) b (renumbered.symm ▸ hB)
  rw [numberGet (renumbered.symm ▸ hA), numberGet (renumbered.symm ▸ hB),
    numberGet (length.symm ▸ hA), numberGet (length.symm ▸ hB), Option.some.injEq,
    Option.some.injEq] at same
  exact same

end Numbers

variable [Weight α] {network : Network α} {total : α}

structure Merges (network : Network α) (total : α) (before after : Stage α) (place : Nat → Nat)
    (level : Network α) (representatives communities : Array Nat) : Prop where
  derived : Derived network place level
  stands : Stands network.nodeCount level.nodeCount place representatives
  fitting : LocalMoving.Fitting level communities
  old : ∀ u < network.nodeCount, ∀ v < network.nodeCount,
    before.root u = before.root v ↔ place u = place v
  new : ∀ u < network.nodeCount, ∀ v < network.nodeCount, after.root u = after.root v ↔
    communities.getD (place u) 0 = communities.getD (place v) 0
  fewer : distinct communities.toList ≠ level.nodeCount
  modularity : after.modularity =
    Modularity.modularity level communities level.weightedDegrees total

structure Advances (network : Network α) (total : α) (before after : Stage α) : Prop where
  rooted : ∀ node < network.nodeCount,
    after.root node < network.nodeCount ∧ after.root (after.root node) = after.root node
  merges : ∃ place level representatives communities,
    Merges network total before after place level representatives communities
  gains : Weight.lt (after.modularity - before.modularity) Weight.zero = false

structure Course (network : Network α) (total : α) (start last : Stage α)
    (stages : List (Stage α)) : Prop where
  chain : (start :: stages).IsChain (Advances network total)
  last : (start :: stages).getLast? = some last

structure Standing (network : Network α) (root place : Nat → Nat) (level : Level α) : Prop where
  derived : Derived network place level.network
  degrees : level.degrees = level.network.weightedDegrees
  stands : Stands network.nodeCount level.network.nodeCount place level.representatives
  kernel : ∀ u < network.nodeCount, ∀ v < network.nodeCount,
    root u = root v ↔ place u = place v

section Step
variable {c : LouvainConfig α} {start last next : Stage α} {stages : List (Stage α)}
  {f : Findings α} {level : Level α} {place : Nat → Nat} {current gain : α}
  {communities dense : List Nat} {count : Nat}

theorem Course.further (course : Course network total start last stages)
    (advances : Advances network total last next) :
    Course network total start next (stages ++ [next]) := by
  refine ⟨?_, by rw [← List.cons_append, List.getLast?_concat]⟩
  rw [← List.cons_append, List.isChain_append]
  refine ⟨course.chain, List.isChain_singleton _, fun x atEnd y atHead => ?_⟩
  obtain rfl : last = x := Option.some.inj (course.last.symm.trans atEnd)
  obtain rfl : next = y := by simpa using atHead
  exact advances

theorem Course.always {Holds : Stage α → Prop} (course : Course network total start last stages)
    (first : Holds start)
    (keeps : ∀ before after, Advances network total before after → Holds before → Holds after) :
    ∀ stage ∈ start :: stages, Holds stage := by
  obtain ⟨chain, -⟩ := course
  induction stages generalizing start with
  | nil => simpa using first
  | cons next stages ih =>
    obtain ⟨advances, chain⟩ := List.isChain_cons_cons.mp chain
    intro stage member
    rcases List.mem_cons.mp member with rfl | later
    · exact first
    · exact ih (keeps _ _ advances first) chain stage later

theorem Course.lastMember (course : Course network total start last stages) :
    last ∈ start :: stages :=
  List.mem_of_getLast? course.last

theorem Course.presented (course : Course network total start last stages)
    {n : Nat} {r : LouvainResult α} (reports : Reports c n last stages r) :
    ∀ labels ∈ r.communities :: r.intermediate.getD [],
      ∃ stage ∈ start :: stages, labels = shown c.consecutiveIds n stage := by
  intro labels member
  rw [reports.communities, reports.intermediate] at member
  rcases List.mem_cons.mp member with final | snapshot
  · exact ⟨last, course.lastMember, final⟩
  · split at snapshot
    · obtain ⟨stage, there, rfl⟩ := List.mem_map.mp snapshot
      exact ⟨stage, List.mem_cons_of_mem _ there, rfl⟩
    · cases snapshot

theorem judgeApplied {previous : α} (applied : judge level total previous communities =
    .applied current gain dense count) :
    dense = renumber communities ∧ count = labelBound (renumber communities) ∧
      count ≠ level.network.nodeCount ∧
      current = Modularity.modularity level.network communities.toArray level.degrees total ∧
      gain = current - previous ∧ Weight.lt gain Weight.zero = false := by
  unfold judge at applied
  dsimp only at applied
  split at applied
  · cases applied
  · rename_i fewer
    split at applied
    · cases applied
    · rename_i notLower
      cases applied
      exact ⟨rfl, rfl, fewer, rfl, rfl, by simpa using notLower⟩

theorem judgeNumbers {previous : α}
    (fitting : LocalMoving.Fitting level.network communities.toArray)
    (applied : judge level total previous communities = .applied current gain dense count) :
    Numbers level.network.nodeCount count dense := by
  obtain ⟨rfl, rfl, -⟩ := judgeApplied applied
  exact numbersOf fitting

def nextStage (n : Nat) (last : Stage α) (level : Level α) (dense : List Nat) (count : Nat)
    (current : α) : Stage α :=
  ⟨mergedRoot n last.root level.representatives dense count, current⟩

theorem Standing.merged (standing : Standing network last.root place level)
    (fitting : LocalMoving.Fitting level.network communities.toArray)
    (applied : judge level total last.modularity communities = .applied current gain dense count)
    {sets : DisjointSet} (represents : Represents network.nodeCount last.root sets) :
    Represents network.nodeCount (nextStage network.nodeCount last level dense count current).root
      (merge level.representatives (anchors level.representatives dense count) dense sets) :=
  mergeRepresents represents standing.stands (judgeNumbers fitting applied)

theorem Standing.advances (standing : Standing network last.root place level)
    (fitting : LocalMoving.Fitting level.network communities.toArray)
    (applied : judge level total last.modularity communities = .applied current gain dense count)
    {sets : DisjointSet} (represents : Represents network.nodeCount last.root sets) :
    Advances network total last
      (nextStage network.nodeCount last level dense count current) := by
  have merged := standing.merged fitting applied represents
  obtain ⟨rfl, rfl, fewer, modularity, rfl, gains⟩ := judgeApplied applied
  have same := mergedSame standing.stands (numbersOf fitting) standing.kernel
  refine ⟨fun node small => ⟨merged.inside node small, merged.rootRoot small⟩,
    ⟨place, level.network, level.representatives, communities.toArray, ?_⟩, gains⟩
  refine ⟨standing.derived, standing.stands, fitting, standing.kernel, fun u hu v hv => ?_, ?_, ?_⟩
  · rw [← numberOfSame fitting (standing.stands.places u hu) (standing.stands.places v hv)]
    exact same u hu v hv
  · rwa [renumberBound] at fewer
  · rw [← standing.degrees]
    exact modularity

theorem Standing.collapsed (standing : Standing network last.root place level)
    (fitting : LocalMoving.Fitting level.network communities.toArray)
    (applied : judge level total last.modularity communities = .applied current gain dense count)
    {g : Graph α} {arrivals : List (Link α)}
    (summed : Summed count (level.network.links (fun node => dense.toArray.getD node 0)
      (List.range level.network.nodeCount)) arrivals g.network) :
    Standing network (nextStage network.nodeCount last level dense count current).root
      (fun node => numberOf dense (place node))
      (.ofGraph g (anchors level.representatives dense count)) := by
  have numbers := judgeNumbers fitting applied
  have stands := standing.stands.anchored numbers
  refine ⟨.collapsed standing.derived numbers.small summed, rfl, ?_,
    mergedSame standing.stands numbers standing.kernel⟩
  exact summed.nodes.symm ▸ stands

end Step

def presenting (c : LouvainConfig α) (consecutive intermediate : Bool) : LouvainConfig α :=
  { c with consecutiveIds := consecutive, includeIntermediate := intermediate }

section Run
variable {c : LouvainConfig α} {start last : Stage α} {stages : List (Stage α)}
  {f f' : Findings α} {level : Level α} {place : Nat → Nat} {consecutive intermediate : Bool}

def Beside (c : LouvainConfig α) (consecutive intermediate : Bool) (network : Network α) (total : α)
    (start : Stage α) (bound : Nat) (answer answer' : Bool × Findings α) : Prop :=
  answer.1 = answer'.1 ∧ ∃ stages last, Course network total start last stages ∧
    stages.length ≤ bound ∧ Reached c network.nodeCount last stages answer.2 ∧
    Reached (presenting c consecutive intermediate) network.nodeCount last stages answer'.2

theorem levelsFollow (words : network.nodeCount ≤ UInt64.size) (inside : network.Inside)
    (left : Nat) {bound : Nat} (before : SearchState) (course : Course network total start last stages)
    (enough : stages.length + 1 + left ≤ bound) (standing : Standing network last.root place level)
    (reached : Reached c network.nodeCount last stages f)
    (reached' : Reached (presenting c consecutive intermediate) network.nodeCount last stages f') :
    Run.Follows (Beside c consecutive intermediate network total start bound)
      (levels c total left (stages.length + 1) before level f)
      (levels (presenting c consecutive intermediate) total left (stages.length + 1) before level
        f') := by
  -- The induction is on the levels left. A level's verdict does not depend on how many there are, so
  -- their number is split only where the next level is made.
  induction left using Nat.strongRecOn generalizing before stages last place level f f' with
  | ind left ih =>
  have same : f'.previous = f.previous := reached'.previous.trans reached.previous.symm
  have stays : Beside c consecutive intermediate network total start bound (true, f) (true, f') :=
    ⟨rfl, stages, last, course, by omega, reached, reached'⟩
  have degrees : level.degrees.size = level.network.nodeCount := by
    simp [standing.degrees, Network.weightedDegrees, Network.nodeCount]
  unfold levels
  rw [same]
  refine Run.Follows.after fun _ => Run.Follows.after fun _ => ?_
  let setting : LocalMoving.Setting α :=
    ⟨level.network, level.degrees, total, c.concurrency, c.minBatchSize⟩
  have moving := fun t => (@LocalMoving.runEnds _ _ setting (standing.derived.inside inside) degrees
    c.coloring c.maxLocalIterations t).phase "Local moving" level.network.nodeCount
  refine (Run.followsEnds moving).bind ?_
  rintro communities _ ⟨rfl, fitting⟩
  rw [reached.previous]
  cases judged : judge level total last.modularity communities with
  | unchanged => exact Run.Follows.after fun _ => Run.Follows.after fun _ => Run.Follows.pure stays
  | lowered => exact Run.Follows.after fun _ => Run.Follows.after fun _ => Run.Follows.pure stays
  | applied current gain dense count =>
    refine Run.Follows.after fun _ => ?_
    have further := course.further (standing.advances fitting judged reached.sets)
    have applied := reached.apply (standing.merged fitting judged reached.sets)
    have applied' := reached'.apply (standing.merged fitting judged reached'.sets)
    have length : (stages ++ [nextStage network.nodeCount last level dense count current]).length =
        stages.length + 1 := by simp
    have tolerance : (presenting c consecutive intermediate).tolerance = c.tolerance := rfl
    rw [tolerance]
    split
    · exact Run.Follows.after fun _ =>
        Run.Follows.pure ⟨rfl, _, _, further, by omega, applied, applied'⟩
    · cases left with
      | zero =>
        exact Run.Follows.after fun _ =>
          Run.Follows.pure ⟨rfl, _, _, further, by omega, applied, applied'⟩
      | succ left =>
        have numbers := judgeNumbers fitting judged
        have small := Nat.le_trans (standing.stands.anchored numbers).le words
        have collapsing := fun t => (collapseEnds small (standing.derived.inside inside)
          numbers.small c t).phase "Aggregation" level.relationshipCount
        refine (Run.followsEnds collapsing).bind ?_
        rintro g _ ⟨rfl, -, arrivals, summed⟩
        have next := ih left (Nat.lt_succ_self left) (.localMoving (stages.length + 1)) further
          (by omega) (standing.collapsed fitting judged summed) applied applied'
        rwa [length] at next

end Run

section Compute
variable {g : Graph α} {c : LouvainConfig α}

def Searched (g : Graph α) (network : Network α) : Prop :=
  if g.orientation = .undirected then network = g.network
  else ∃ arrivals, Summed g.nodeCount
    ((g.network.links id (List.range g.nodeCount)).flatMap (Link.oriented .undirected)) arrivals
    network

def totalWeight (network : Network α) : α := Weight.sum network.weightedDegrees.toList

def firstStage (network : Network α) : Stage α :=
  ⟨id, Modularity.modularity network (Array.range network.nodeCount) network.weightedDegrees
    (totalWeight network)⟩

theorem Searched.nodes {network : Network α} (searched : Searched g network) :
    network.nodeCount = g.nodeCount := by
  unfold Searched at searched
  split at searched
  · rw [searched, Graph.networkNodes]
  · obtain ⟨arrivals, summed⟩ := searched
    exact summed.nodes

theorem Searched.inside {network : Network α} (searched : Searched g network)
    (inside : g.network.Inside) : network.Inside := by
  unfold Searched at searched
  split at searched
  · rwa [searched]
  · obtain ⟨arrivals, summed⟩ := searched
    exact summed.inside

theorem firstLevelEnds (made : g.Made) (c : LouvainConfig α) (t : Termination) :
    Run.Ends t (fun _ => True) (fun answer => ∃ network, Searched g network ∧
      Standing network id id answer.1 ∧ answer.2.1 = totalWeight network ∧
      answer.2.2 = (firstStage network).modularity) (firstLevel g c) := by
  unfold firstLevel
  dsimp only
  split
  · rename_i undirected
    refine (Run.endsNote _).bind fun _ _ => Run.Ends.pure
      ⟨g.network, (if_pos undirected).mpr rfl, ?_⟩
    rw [← Graph.networkNodes]
    exact ⟨⟨.first, rfl, singletonsStand _, fun _ _ _ _ => Iff.rfl⟩, rfl, rfl⟩
  · rename_i oneWay
    have copied := symmetricCopyEnds made.words made.inside c t
    refine (copied.failing fun _ _ => trivial).bind ?_
    rintro symmetric ⟨nodes, copied⟩
    refine (Run.endsNote _).bind fun _ _ =>
      Run.Ends.pure ⟨symmetric.network, (if_neg oneWay).mpr copied, ?_⟩
    rw [← nodes, ← Graph.networkNodes]
    exact ⟨⟨.first, rfl, singletonsStand _, fun _ _ _ _ => Iff.rfl⟩, rfl, rfl⟩

theorem computeFollows (made : g.Made) (c : LouvainConfig α) (consecutive intermediate : Bool) :
    Run.Follows (fun r r' => r.didConverge = r'.didConverge ∧ ∃ network last stages,
        Searched g network ∧
        Course network (totalWeight network) (firstStage network) last stages ∧
        (0 < c.maxIterations → stages.length ≤ c.maxIterations) ∧
        Reports c network.nodeCount last stages r ∧
        Reports (presenting c consecutive intermediate) network.nodeCount last stages r')
      (compute g c) (compute g (presenting c consecutive intermediate)) := by
  unfold compute
  refine Run.Follows.after fun _ => ?_
  have first := fun t => (firstLevelEnds made c t).phase "Initialization" g.nodeCount
  refine (Run.followsEnds first).bind ?_
  rintro ⟨level, total, modularity⟩ _ ⟨rfl, network, searched, standing, rfl, rfl⟩
  have course : Course network (totalWeight network) (firstStage network) (firstStage network) [] :=
    ⟨List.isChain_singleton _, rfl⟩
  have reached : ∀ c : LouvainConfig α, Reached c network.nodeCount (firstStage network) []
      ⟨.make g.nodeCount, (firstStage network).modularity, [], 0, []⟩ := fun c => by
    rw [← searched.nodes]
    exact ⟨makeRepresents _, rfl, rfl, rfl, by simp⟩
  have levels := levelsFollow (searched.nodes ▸ made.words) (searched.inside made.inside)
    (c.maxIterations - 1) .initialized course (Nat.le_refl _) standing (reached c)
    (reached (presenting c consecutive intermediate))
  refine levels.bind ?_
  rintro ⟨converged, f⟩ ⟨_, f'⟩ ⟨rfl, stages, last, course, bound, reached, reached'⟩
  refine Run.Follows.after fun _ => Run.Follows.pure ⟨rfl, network, last, stages, searched, course,
    fun some => ?_, reached.reports converged, reached'.reports converged⟩
  simp only [List.length_nil] at bound
  omega

variable {r : LouvainResult α} {t : Termination} {j j' : Journal}

theorem computeReports (made : g.Made) (ran : compute g c t j = (.ok r, j')) :
    ∃ network last stages, Searched g network ∧
      Course network (totalWeight network) (firstStage network) last stages ∧
      (0 < c.maxIterations → stages.length ≤ c.maxIterations) ∧
      Reports c network.nodeCount last stages r := by
  obtain ⟨_, -, -, network, last, stages, searched, course, bound, reports, -⟩ :=
    (computeFollows made c c.consecutiveIds c.includeIntermediate).ok ran
  exact ⟨network, last, stages, searched, course, bound, reports⟩

end Compute

section Sample
open Builder

def outcome (idMap : IdMap) (config : BuilderConfig Rat) (additions : List (Addition Rat))
    (c : LouvainConfig Rat) : Except EngineError (LouvainResult Rat) :=
  match Builder.outcome idMap config additions with
  | .error e => .error e
  | .ok r => (compute ⟨r, none⟩ c .always .empty).1

theorem outcomeRan {idMap : IdMap} {config : BuilderConfig Rat} {additions : List (Addition Rat)}
    {c : LouvainConfig Rat} {labels : List Nat}
    (works : (outcome idMap config additions c).toOption.map LouvainResult.communities =
      some labels) :
    ∃ relationships r j, Builder.outcome idMap config additions = .ok relationships ∧
      compute ⟨relationships, none⟩ c .always .empty = (.ok r, j) ∧ r.communities = labels := by
  unfold outcome at works
  cases built : Builder.outcome idMap config additions with
  | error e =>
    rw [built] at works
    cases works
  | ok relationships =>
    simp only [built] at works
    cases ran : compute ⟨relationships, none⟩ c .always .empty with
    | mk outcome j =>
      rw [ran] at works
      cases outcome with
      | error e => cases works
      | ok r => exact ⟨relationships, r, j, rfl, ran, Option.some.inj works⟩

theorem outcomeMade {idMap : IdMap} (dense : idMap.Dense) {config : BuilderConfig Rat}
    {additions : List (Addition Rat)} {c : LouvainConfig Rat} {labels : List Nat}
    (works : (outcome idMap config additions c).toOption.map LouvainResult.communities =
      some labels) :
    ∃ (g : Graph Rat) (r : LouvainResult Rat) (j : Journal), g.Made ∧
      compute g c .always .empty = (.ok r, j) ∧ r.communities = labels := by
  obtain ⟨relationships, r, j, built, ran, found⟩ := outcomeRan works
  exact ⟨_, r, j, builtMade dense built, ran, found⟩

def sampleSearch : LouvainConfig Rat := ⟨0, 1, 3, 1, 1, false, true, .greedy⟩

theorem sampleRuns : ∃ (g : Graph Rat) (r : LouvainResult Rat) (j : Journal), g.Made ∧
    compute g sampleSearch .always .empty = (.ok r, j) ∧ r.communities = [0, 0, 0] := by
  refine @outcomeMade (.direct 3) (IdMap.directDense (by decide))
    ⟨.natural, .none, [.weight], false, false, 1, 8⟩ [.internal 0 1 [2], .internal 2 1 [1]]
    sampleSearch _ ?_
  -- Numbering reads a hash map, which does not evaluate; places of first appearance do.
  unfold outcome compute levels
  simp only [judge, renumberPlaces]
  cbv

end Sample
end CommunityGraph.Louvain
