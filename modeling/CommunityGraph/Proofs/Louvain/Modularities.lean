import CommunityGraph.Proofs.Louvain.Hierarchy
import CommunityGraph.Proofs.Modularity

/-! The modularities that a search reports are those of its communities on the graph it was given, though
each of them is computed on collapsed communities of the level before. -/
namespace CommunityGraph.Louvain

section Sums
variable {count : Nat} {links arrivals : List (Link Rat)} {network next : Network Rat}

def linkValue (link : Link Rat) : Rat := (link.values[0]?).getD 0

theorem foldSum (values : List Rat) : (Aggregation.sum.fold? values).toList.sum = values.sum := by
  cases values with
  | nil => rfl
  | cons value values =>
    have whole := accumulateSum (value :: values)
    have start : Weight.accumulate (value :: values) = values.foldl (· + ·) value := by
      rw [Weight.accumulate, List.foldl_cons]
      exact congrArg (values.foldl (· + ·)) (zero_add value)
    rw [← whole, start]
    exact add_zero _

theorem valuesSum (source target : Nat) (arrivals : List (Link Rat)) :
    ((Link.between source target arrivals).filterMap fun values => values[0]?).sum =
      ((arrivals.filter fun link => link.source = source ∧ link.target = target).map
        linkValue).sum := by
  rw [Link.between, List.filterMap_map]
  induction arrivals.filter fun link => link.source = source ∧ link.target = target with
  | nil => rfl
  | cons link rest ih =>
    rw [List.map_cons, List.sum_cons, ← ih, List.filterMap_cons, linkValue]
    cases found : link.values[0]? with
    | none => simp [found]
    | some value => simp [found]

theorem Summed.pairSum (summed : Summed count links arrivals next) (inside : Link.Inside count links)
    (f : Nat → Nat → Rat) :
    next.pairSum f = (links.map fun link => f link.source link.target * linkValue link).sum := by
  have arrived : Link.Inside count arrivals := fun link member =>
    inside link (summed.arrived.mem_iff.mp member)
  have rows : ∀ c ∈ Finset.range count,
      ((next.row c).map fun entry => f c entry.1 * entry.2).sum =
        ((arrivals.filter fun link => link.source = c).map
          fun link => f link.source link.target * linkValue link).sum := by
    intro c member
    have ends : ∀ link ∈ arrivals.filter fun link => link.source = c, link.target < count :=
      fun link there => (arrived link (List.mem_of_mem_filter there)).2
    rw [Network.rowSum summed.inside, summed.nodes, sumByKey Link.target _ ends]
    refine Finset.sum_congr rfl fun target there => ?_
    have weight := congrArg List.sum
      (summed.weights c (Finset.mem_range.mp member) target (Finset.mem_range.mp there))
    rw [foldSum, valuesSum] at weight
    have sameEnds : ∀ link ∈ arrivals.filter fun link => link.source = c ∧ link.target = target,
        f link.source link.target = f c target := by
      intro link there
      obtain ⟨source, target⟩ := of_decide_eq_true (List.mem_filter.mp there).2
      rw [source, target]
    rw [weight, ← factorSum sameEnds, List.filter_filter]
    refine congrArg (fun links => List.sum (List.map _ links)) (List.filter_congr fun link _ => ?_)
    rw [Bool.decide_and, Bool.and_comm]
  rw [Network.pairSum, summed.nodes, Finset.sum_congr rfl rows,
    ← sumByKey Link.source _ fun link member => (arrived link member).1]
  exact (summed.arrived.map _).sum_eq

theorem linksSum (rename : Nat → Nat) (f : Nat → Nat → Rat) :
    ((network.links rename (List.range network.nodeCount)).map fun link =>
      f link.source link.target * linkValue link).sum =
      network.pairSum fun u v => f (rename u) (rename v) := by
  rw [Network.links, List.map_flatMap, List.flatMap_def, List.sum_flatten, List.map_map, rangeSum]
  refine Finset.sum_congr rfl fun node _ => ?_
  rw [Function.comp_apply, List.map_map]
  rfl

theorem Derived.pairSum {place : Nat → Nat} {level : Network Rat}
    (derived : Derived network place level) (inside : network.Inside) (f : Nat → Nat → Rat) :
    level.pairSum f = network.pairSum fun u v => f (place u) (place v) := by
  induction derived generalizing f with
  | first => rfl
  | collapsed before small summed ih =>
    have within := Network.linksWithin (before.inside inside) small
    rw [summed.pairSum within, linksSum, ih]

theorem Derived.quality {place : Nat → Nat} {level : Network Rat}
    (derived : Derived network place level) (inside : network.Inside) (label : Nat → Nat)
    (total : Rat) :
    Modularity.quality level label total =
      Modularity.quality network (fun node => label (place node)) total := by
  simp only [Modularity.quality, derived.pairSum inside]
  rfl

structure SymmetricSum (original copy : Network Rat) : Prop where
  nodes : copy.nodeCount = original.nodeCount
  ascending : ∀ node, (copy.targets node).Pairwise (· < ·)
  targets : ∀ u v, v ∈ copy.targets u ↔ v ∈ original.targets u ∨ u ∈ original.targets v
  weights : ∀ u v, (copy.between u v).sum = (original.between u v).sum + (original.between v u).sum

theorem bothWaysSum (links : List (Link Rat)) (f : Nat → Nat → Rat) :
    ((links.flatMap (Link.oriented .undirected)).map fun link =>
      f link.source link.target * linkValue link).sum =
      (links.map fun link =>
        (f link.source link.target + f link.target link.source) * linkValue link).sum := by
  rw [List.map_flatMap, List.flatMap_def, List.sum_flatten, List.map_map]
  refine congrArg List.sum (List.map_congr_left fun link _ => ?_)
  simp [Link.oriented, Link.swap, linkValue, add_mul]

theorem Summed.symmetric (summed : Summed network.nodeCount
      ((network.links id (List.range network.nodeCount)).flatMap (Link.oriented .undirected))
      arrivals next) (inside : network.Inside) : SymmetricSum network next where
  nodes := summed.nodes
  ascending := summed.ascending
  targets := summed.mirrors
  weights u v := by
    have renamed : ∀ node < network.nodeCount, id node < network.nodeCount := fun _ small => small
    have within := Builder.orientedInside (Network.linksWithin inside renamed) .undirected
    let pair (a b : Nat) : Rat := if a = u ∧ b = v then 1 else 0
    have both : next.pairSum pair = network.pairSum fun a b => pair a b + pair b a :=
      (summed.pairSum within pair).trans
        ((bothWaysSum _ pair).trans (linksSum id fun a b => pair a b + pair b a))
    have back : network.pairSum (fun a b => pair b a) = (network.between v u).sum := by
      rw [← Network.betweenSum]
      exact Network.pairSumCongr inside fun a _ b _ => if_congr and_comm rfl rfl
    calc (next.between u v).sum = next.pairSum pair := (Network.betweenSum u v).symm
      _ = network.pairSum pair + network.pairSum fun a b => pair b a :=
        both.trans (Network.pairSumAdd _ _)
      _ = (network.between u v).sum + (network.between v u).sum := by
        rw [back, ← Network.betweenSum u v]

end Sums

section Measured
variable {network : Network Rat}

def measured (network : Network Rat) (labels : List Nat) : Rat :=
  Modularity.modularity network labels.toArray network.weightedDegrees (totalWeight network)

theorem shownSmall (consecutive : Bool) {n : Nat} {stage : Stage Rat} (rooted : Rooted n stage) :
    ∀ label ∈ shown consecutive n stage, label < n := by
  intro label member
  unfold shown at member
  split at member
  · have bound := ltLabelBound member
    have fewer := distinctLe (labelsOf n stage)
    rw [renumberBound] at bound
    rw [labelsLength] at fewer
    omega
  · obtain ⟨node, small, rfl⟩ := List.mem_map.mp member
    exact (rooted node (List.mem_range.mp small)).1

theorem measuredQuality (consecutive : Bool) (inside : network.Inside) {stage : Stage Rat}
    (rooted : Rooted network.nodeCount stage) :
    measured network (shown consecutive network.nodeCount stage) =
      Modularity.quality network stage.root (totalWeight network) := by
  have length := shownLength consecutive network.nodeCount stage
  have got : ∀ node < network.nodeCount, (shown consecutive network.nodeCount stage)[node]? =
      some ((shown consecutive network.nodeCount stage).toArray.getD node 0) := by
    intro node small
    have there : node < (shown consecutive network.nodeCount stage).length := length.symm ▸ small
    simp [there]
  rw [measured, Modularity.modularityQuality (by simpa using length) ?_]
  · refine Modularity.qualityCongr inside (fun u hu v hv => ?_) _
    rw [← shownSame consecutive stage hu hv, got u hu, got v hv, Option.some.injEq]
  · intro node small
    exact shownSmall consecutive rooted _ (List.mem_of_getElem? (got node small))

theorem Advances.modularity {before after : Stage Rat} {total : Rat}
    (advances : Advances network total before after) (inside : network.Inside) :
    after.modularity = Modularity.quality network after.root total := by
  obtain ⟨place, level, representatives, communities, merges⟩ := advances.merges
  have labels : ∀ node < level.nodeCount, communities.getD node 0 < level.nodeCount :=
    fun node small => (merges.fitting.fits node small).1
  rw [merges.modularity, Modularity.modularityQuality merges.fitting.size labels,
    merges.derived.quality inside]
  exact Modularity.qualityCongr inside (fun u hu v hv => (merges.new u hu v hv).symm) total

theorem Searched.described {g : Graph Rat} (searched : Searched g network)
    (inside : g.network.Inside) :
    if g.orientation = .undirected then network = g.network else SymmetricSum g.network network := by
  unfold Searched at searched
  rw [← Graph.networkNodes] at searched
  split at searched
  · rename_i undirected
    rwa [if_pos undirected]
  · rename_i oneWay
    obtain ⟨arrivals, summed⟩ := searched
    rw [if_neg oneWay]
    exact summed.symmetric inside

theorem Advances.ascends {before after : Stage Rat} {total : Rat}
    (advances : Advances network total before after) : before.modularity ≤ after.modularity := by
  have gains := advances.gains
  have positive : ¬ after.modularity - before.modularity < 0 := of_decide_eq_false gains
  exact sub_nonneg.mp (not_lt.mp positive)

theorem Course.measures {last : Stage Rat} {stages : List (Stage Rat)} (inside : network.Inside)
    (course : Course network (totalWeight network) (firstStage network) last stages)
    (consecutive : Bool) : ∀ stage ∈ firstStage network :: stages,
      stage.modularity = measured network (shown consecutive network.nodeCount stage) := by
  have kept : ∀ stage ∈ firstStage network :: stages, Rooted network.nodeCount stage ∧
      stage.modularity = Modularity.quality network stage.root (totalWeight network) := by
    refine course.always ⟨fun node small => ⟨small, rfl⟩, ?_⟩ fun before after advances _ =>
      ⟨advances.rooted, advances.modularity inside⟩
    rw [firstStage, Modularity.modularityQuality (by simp) fun node small => by simp [small]]
    exact Modularity.qualityCongr inside (fun u hu v hv => by simp [hu, hv]) _
  intro stage member
  obtain ⟨rooted, modularity⟩ := kept stage member
  rw [modularity, measuredQuality consecutive inside rooted]

theorem Course.ascends {start last : Stage Rat} {stages : List (Stage Rat)} {total : Rat}
    (course : Course network total start last stages) :
    ((start :: stages).map Stage.modularity).Pairwise (· ≤ ·) := by
  refine List.isChain_iff_pairwise.mp ((List.isChain_map _).mpr ?_)
  exact course.chain.imp fun before after advances => advances.ascends

end Measured

section Results
variable {g : Graph Rat} {c : LouvainConfig Rat} {r : LouvainResult Rat} {t : Termination}
  {j j' : Journal}

/-- What is reported after each level, and in the end, is measured on the graph that was given. -/
theorem modularitiesReported (made : g.Made) (ran : compute g c t j = (.ok r, j')) :
    ∃ network snapshots,
      (if g.orientation = .undirected then network = g.network
        else SymmetricSum g.network network) ∧
      compute g (presenting c c.consecutiveIds true) t j =
        (.ok { r with intermediate := some snapshots }, j') ∧
      r.modularities = snapshots.map (measured network) ∧
      r.modularity = measured network r.communities ∧
      (r.ranLevels = 0 → r.modularity = measured network (List.range g.nodeCount)) ∧
      (measured network (List.range g.nodeCount) :: r.modularities).Pairwise (· ≤ ·) := by
  obtain ⟨r', ran', converged, network, last, stages, searched, course, -, reports, reports'⟩ :=
    (computeFollows made c c.consecutiveIds true).ok ran
  have measures := course.measures (searched.inside made.inside) c.consecutiveIds
  have first : measured network (List.range g.nodeCount) = (firstStage network).modularity := by
    rw [measures _ (by simp), shownSingletons _ _ rfl, searched.nodes]
  let snapshots := stages.map (shown c.consecutiveIds network.nodeCount)
  have same : r' = { r with intermediate := some snapshots } := by
    obtain ⟨labels, modularities, modularity, levels, _, _⟩ := r
    obtain ⟨labels', modularities', modularity', levels', _, _⟩ := r'
    obtain ⟨rfl, rfl, rfl, rfl, -⟩ := reports
    obtain ⟨rfl, rfl, rfl, rfl, rfl⟩ := reports'
    obtain rfl := converged
    rfl
  refine ⟨network, snapshots, searched.described made.inside, same ▸ ran', ?_, ?_, fun none => ?_, ?_⟩
  · rw [reports.modularities, List.map_map]
    exact List.map_congr_left fun stage member => measures stage (List.mem_cons_of_mem _ member)
  · rw [reports.modularity, reports.communities, measures _ course.lastMember]
  · rw [reports.ranLevels] at none
    obtain rfl := List.eq_nil_of_length_eq_zero none
    have last : firstStage network = last := by simpa using course.last
    rw [reports.modularity, ← last, first]
  · rw [first, reports.modularities, ← List.map_cons]
    exact course.ascends

theorem sampleModularities : ∃ (g : Graph Rat) (r : LouvainResult Rat) (j : Journal)
    (network : Network Rat) (snapshots : List (List Nat)), g.Made ∧
    compute g sampleSearch .always .empty = (.ok r, j) ∧ r.communities = [0, 0, 0] ∧
    compute g (presenting sampleSearch false true) .always .empty =
      (.ok { r with intermediate := some snapshots }, j) ∧
    r.modularities = snapshots.map (measured network) ∧
    r.modularity = measured network [0, 0, 0] ∧
    (measured network (List.range g.nodeCount) :: r.modularities).Pairwise (· ≤ ·) := by
  obtain ⟨g, r, j, made, ran, labels⟩ := sampleRuns
  obtain ⟨network, snapshots, -, again, modularities, modularity, -, ascends⟩ :=
    modularitiesReported made ran
  exact ⟨g, r, j, network, snapshots, made, ran, labels, again, modularities, labels ▸ modularity,
    ascends⟩

end Results
end CommunityGraph.Louvain
