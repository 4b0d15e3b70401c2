import CommunityGraph.Proofs.Builder.Straddling

/-! Undirected relationships at both of their nodes. The targets always mirror each other. Values do,
too, if their order does not matter or both halves of a relationship always arrive together; otherwise
a flush between the halves lets the nodes keep different ones of parallel relationships. -/
namespace CommunityGraph

namespace Link
variable {α : Type}

theorem betweenPerm {xs ys : List (Link α)} (same : xs.Perm ys) (source target : Nat) :
    (between source target xs).Perm (between source target ys) :=
  (same.filter _).map _

theorem betweenAppend (source target : Nat) (xs ys : List (Link α)) :
    between source target (xs ++ ys) = between source target xs ++ between source target ys := by
  simp [between]

theorem undirectedSwapped (links : List (Link α)) :
    ((links.flatMap (oriented .undirected)).map swap).Perm
      (links.flatMap (oriented .undirected)) := by
  induction links with
  | nil => exact .refl _
  | cons link links ih => exact (List.Perm.swap _ _ _).trans ((ih.cons _).cons _)

theorem betweenMirrored {links arrivals : List (Link α)}
    (arrived : arrivals.Perm (links.flatMap (oriented .undirected))) (u v : Nat) :
    (between u v arrivals).Perm (between v u arrivals) := by
  have back := betweenPerm (undirectedSwapped links) u v
  rw [betweenSwap] at back
  exact (betweenPerm arrived u v).trans (back.symm.trans (betweenPerm arrived.symm v u))

theorem betweenTogether (links : List (Link α)) (u v : Nat) :
    between u v (links.flatMap (oriented .undirected)) =
      between v u (links.flatMap (oriented .undirected)) := by
  induction links with
  | nil => rfl
  | cons link links ih =>
    have pair : between u v (link.oriented .undirected) = between v u (link.oriented .undirected) := by
      have forth : link.target = u ∧ link.source = v ↔ link.source = v ∧ link.target = u := and_comm
      have back : link.target = v ∧ link.source = u ↔ link.source = u ∧ link.target = v := and_comm
      simp only [between, oriented, swap, List.filter_cons, List.filter_nil, decide_eq_true_eq,
        forth, back]
      split <;> split <;> rfl
    rw [List.flatMap_cons, betweenAppend, betweenAppend, pair, ih]

theorem outgoingTargets (source target : Nat) (links : List (Link α)) :
    target ∈ (outgoing source links).map Prod.fst ↔ between source target links ≠ [] := by
  rw [betweenOutgoing, Ne, List.map_eq_nil_iff, List.filter_eq_nil_iff]
  simp [List.mem_map]

end Link

namespace Builder
open AdjacencyBuffer Relationships Link

section Mirrored
variable {α : Type}

def MirroredTargets (nodeCount : Nat) (adjacency : AdjacencyList) : Prop :=
  ∀ u < nodeCount, ∀ v < nodeCount, v ∈ adjacency.targets u ↔ u ∈ adjacency.targets v

def MirroredValues (nodeCount : Nat) (adjacency : AdjacencyList)
    (property : RelationshipProperty α) : Prop :=
  ∀ u < nodeCount, ∀ v < nodeCount,
    Row.foundAt v (adjacency.targets u) (property.values u) =
      Row.foundAt u (adjacency.targets v) (property.values v)

/-- A property keeps the same values at both nodes when their order does not matter, when the two
halves of a relationship stay together, or when there are no two nodes. -/
def Mirrorable (nodeCount : Nat) (config : BuilderConfig α) (a : Aggregation) : Prop :=
  a = .single → Schedule.Settled config.bufferSize config.concurrency ∨ nodeCount < 2

variable {nodeCount : Nat} {config : BuilderConfig α} {layout : PropertyLayout}
  {links arrivals : List (Link α)} {adjacency : AdjacencyList}
  {properties : List (RelationshipProperty α)}

theorem arrivedTogether (valid : config.Valid layout)
    (undirected : config.orientation = .undirected)
    (settled : Schedule.Settled config.bufferSize config.concurrency) (links : List (Link α)) :
    ∃ ordered : List (Link α), arrivedLinks config links =
      ordered.flatMap (oriented .undirected) := by
  obtain ⟨ordered, -, together⟩ := Schedule.arrivalsTogether id swap settled valid.bufferSize
    valid.concurrency links
  rw [arrivedLinks, undirected]
  exact ⟨ordered, together⟩

variable [Weight α]

theorem Tells.mirroredTargets
    (tells : Tells nodeCount layout (links.flatMap (oriented .undirected)) arrivals adjacency
      properties) (folds : layout.folds = true) : MirroredTargets nodeCount adjacency := by
  intro u small v other
  have same := (betweenMirrored (List.Perm.refl (links.flatMap (oriented .undirected))) u v).length_eq
  rw [(tells.folded folds u small).2 v, (tells.folded folds v other).2 u, outgoingTargets,
    outgoingTargets, ← List.length_pos_iff, ← List.length_pos_iff, same]

theorem Tells.mirroredValues (tells : Tells nodeCount layout links arrivals adjacency properties)
    (folds : layout.folds = true) {index : Nat} {a : Aggregation}
    (policy : layout.aggregations[index]? = some a) {property : RelationshipProperty α}
    (found : properties[index]? = some property)
    (same : ∀ u < nodeCount, ∀ v < nodeCount,
      a.fold? ((between u v arrivals).filterMap fun values => values[index]?) =
        a.fold? ((between v u arrivals).filterMap fun values => values[index]?)) :
    MirroredValues nodeCount adjacency property := by
  intro u small v other
  obtain ⟨b, there, forth⟩ := tells.merged folds u small v other index property found
  obtain ⟨c, here, back⟩ := tells.merged folds v other u small index property found
  obtain rfl : a = b := Option.some.inj (policy.symm.trans there)
  obtain rfl : a = c := Option.some.inj (policy.symm.trans here)
  rw [forth, back, same u small v other]

end Mirrored

theorem foldMirrored {nodeCount : Nat} {config : BuilderConfig Rat} {layout : PropertyLayout}
    (valid : config.Valid layout) (undirected : config.orientation = .undirected)
    {a : Aggregation} (folds : a.folds = true) (mirrorable : Mirrorable nodeCount config a)
    (links : List (Link Rat)) (index : Nat) {u v : Nat} (small : u < nodeCount)
    (other : v < nodeCount) :
    a.fold? ((between u v (arrivedLinks config links)).filterMap fun values => values[index]?) =
      a.fold? ((between v u (arrivedLinks config links)).filterMap fun values => values[index]?) := by
  by_cases ordered : a = .single
  · rcases mirrorable ordered with settled | few
    · obtain ⟨ordered, together⟩ := arrivedTogether valid undirected settled links
      rw [together, betweenTogether]
    · obtain rfl : u = v := by omega
      rfl
  · have arrived := arrivedPerm valid links
    rw [undirected] at arrived
    exact Aggregation.foldPerm folds ordered ((betweenMirrored arrived u v).filterMap _)

def Mirrors (idMap : IdMap) (config : BuilderConfig Rat) (layout : PropertyLayout)
    (b : Builder Rat) (index : Nat) : Prop :=
  ∀ (additions : List (Addition Rat)) (t : Termination) (j : Journal),
    Delivers t (ShortOfMemory idMap.nodeCount config layout
        (additions.filterMap (link? idMap config layout)))
      (fun r => ∀ property, r.properties[index]? = some property →
        MirroredValues idMap.nodeCount r.topology.adjacency property)
      ((b.performAll additions).build t j).1

section Undirected
variable {idMap : IdMap} {config : BuilderConfig Rat} {layout : PropertyLayout} {b : Builder Rat}

theorem mirrorableMirrors (dense : idMap.Dense) (valid : config.Valid layout)
    (runs : Runs idMap config layout [] b) (undirected : config.orientation = .undirected)
    (folds : layout.folds = true) {index : Nat} {a : Aggregation}
    (policy : layout.aggregations[index]? = some a)
    (mirrorable : Mirrorable idMap.nodeCount config a) : Mirrors idMap config layout b index := by
  intro additions t j
  refine runs.deliversTells dense valid additions t j fun r tells property found => ?_
  have folding := PropertyLayout.makeFolds valid.made folds a (List.mem_of_getElem? policy)
  exact tells.mirroredValues folds policy found fun u small v other =>
    foldMirrored valid undirected folding mirrorable _ index small other

theorem straddlingBuilt (valid : config.Valid layout) (runs : Runs idMap config layout [] b)
    (undirected : config.orientation = .undirected) (folds : layout.folds = true)
    (several : 2 ≤ idMap.nodeCount) (room : layout.propertyCount * 16 ≤ Memory.maxBlock)
    (half others : Nat) (j : Journal) :
    ∃ r, ((b.performAll ((straddling half others layout.propertyCount).map additionOf)).build
        .always j).1 = .ok r ∧
      Built idMap.nodeCount config layout
        (arrived config (straddling half others layout.propertyCount))
        (inverseArrived config (straddling half others layout.propertyCount)) r := by
  have performed := runs.performAll valid
    ((straddling half others layout.propertyCount).map additionOf)
  have inside : Inside idMap.nodeCount (straddling half others layout.propertyCount) := by
    intro link member
    obtain ⟨source, target⟩ := straddlingInside link member
    omega
  rw [List.nil_append, additionsTaken inside straddlingUsable] at performed
  have ended := performed.build .always j
  generalize ((b.performAll _).build .always j).1 = outcome at ended ⊢
  cases ended with
  | built finished => exact ⟨_, rfl, finished⟩
  | stopped stops =>
    obtain ⟨_, _, stopped⟩ := stops
    cases stopped
  | exhausted exhausts =>
    rw [arrivedStaged] at exhausts
    exact absurd exhausts (fewTargetsFit folds (arrivedInside valid straddlingInside) (by decide)
      (by omega) _ _)
  | inverseExhausted inverted _ => exact absurd undirected (valid.oneWay inverted)

theorem straddlingRead (dense : idMap.Dense) (valid : config.Valid layout)
    (runs : Runs idMap config layout [] b) (undirected : config.orientation = .undirected)
    (folds : layout.folds = true) (several : 2 ≤ idMap.nodeCount)
    (room : layout.propertyCount * 16 ≤ Memory.maxBlock) {index half others : Nat}
    (policy : layout.aggregations[index]? = some .single)
    (size : config.bufferSize = 2 * half + 3) (slots : config.concurrency = others + 1)
    (more : 0 < others) :
    ∃ r property, ((b.performAll ((straddling half others layout.propertyCount).map
        additionOf)).build .always .empty).1 = .ok r ∧ r.properties[index]? = some property ∧
      Row.foundAt 1 (r.topology.adjacency.targets 0) (property.values 0) = [1] ∧
      Row.foundAt 0 (r.topology.adjacency.targets 1) (property.values 1) = [2] := by
  obtain ⟨r, done, built⟩ :=
    straddlingBuilt valid runs undirected folds several room half others .empty
  have inside : Inside idMap.nodeCount (straddling half others layout.propertyCount) :=
    fun link member => (straddlingInside link member).imp (by omega) (by omega)
  have full : Full layout.propertyCount (straddling half others layout.propertyCount) :=
    fun link member => (straddlingUsable link member).1
  have tells := built.tells valid dense.words inside full
  have even := PropertyLayout.makeEven valid.made
  have small : index < layout.propertyCount := even ▸ (List.getElem?_eq_some_iff.mp policy).1
  obtain ⟨property, found, -⟩ := built.lists.named valid small
  obtain ⟨forth, back⟩ := straddlingArrived undirected size slots more layout.propertyCount
  obtain ⟨a, there, first⟩ := tells.merged folds 0 (by omega) 1 (by omega) index property found
  obtain ⟨c, here, second⟩ := tells.merged folds 1 (by omega) 0 (by omega) index property found
  obtain rfl : .single = a := Option.some.inj (policy.symm.trans there)
  obtain rfl : .single = c := Option.some.inj (policy.symm.trans here)
  refine ⟨r, property, done, found, ?_, ?_⟩
  · rw [first, forth]
    simp [small, Aggregation.fold?, Aggregation.merge]
  · rw [second, back]
    simp [small, Aggregation.fold?, Aggregation.merge]

theorem mirrorsMirrorable (dense : idMap.Dense) (valid : config.Valid layout)
    (runs : Runs idMap config layout [] b) (undirected : config.orientation = .undirected)
    (folds : layout.folds = true) {index : Nat} {a : Aggregation}
    (policy : layout.aggregations[index]? = some a)
    (room : layout.propertyCount * 16 ≤ Memory.maxBlock)
    (mirrors : Mirrors idMap config layout b index) : Mirrorable idMap.nodeCount config a := by
  rintro rfl
  by_contra apart
  obtain ⟨unsettled, several⟩ := not_or.mp apart
  have two : 2 ≤ idMap.nodeCount := Nat.not_lt.mp several
  obtain ⟨half, others, more, size, slots⟩ :=
    Schedule.unsettledShape unsettled valid.bufferSize valid.concurrency
  obtain ⟨r, property, done, found, first, second⟩ :=
    straddlingRead dense valid runs undirected folds two room policy size slots more
  have mirrored := mirrors ((straddling half others layout.propertyCount).map additionOf) .always
    .empty
  rw [done] at mirrored
  have same := mirrored property found 0 (by omega) 1 (by omega)
  rw [first, second] at same
  exact absurd same (by decide)

end Undirected

/-- Targets mirror each other, whatever is added and however it is flushed. A property mirrors
exactly when it is mirrorable: sums, least and greatest values always do, a first value only if no flush
can come between the two halves of a relationship. -/
theorem undirectedMirrors {idMap : IdMap} (dense : idMap.Dense) {config : BuilderConfig Rat}
    {b : Builder Rat} (made : make idMap config = .ok b)
    (undirected : config.orientation = .undirected) :
    ∃ layout, config.layout = .ok layout ∧ (layout.folds = true →
      (∀ (additions : List (Addition Rat)) (t : Termination) (j : Journal),
        Delivers t (ShortOfMemory idMap.nodeCount config layout
            (additions.filterMap (link? idMap config layout)))
          (fun r => MirroredTargets idMap.nodeCount r.topology.adjacency ∧
            r.properties.map RelationshipProperty.key = layout.keys ∧
            ∀ node < idMap.nodeCount, Readable r.topology.adjacency r.properties node)
          ((b.performAll additions).build t j).1) ∧
      ∀ (index : Nat) (a : Aggregation), layout.aggregations[index]? = some a →
        (Mirrorable idMap.nodeCount config a → Mirrors idMap config layout b index) ∧
        (layout.propertyCount * 16 ≤ Memory.maxBlock → Mirrors idMap config layout b index →
          Mirrorable idMap.nodeCount config a)) := by
  obtain ⟨layout, found, valid, runs⟩ := makeRuns made
  refine ⟨layout, found, fun folds => ⟨fun additions t j => ?_, fun index a policy =>
    ⟨mirrorableMirrors dense valid runs undirected folds policy,
      mirrorsMirrorable dense valid runs undirected folds policy⟩⟩⟩
  refine runs.deliversTells dense valid additions t j fun r tells => ?_
  have keys := tells.keys
  have readable := tells.readable
  rw [undirected] at tells
  exact ⟨tells.mirroredTargets folds, keys, readable⟩

def oddConfig : BuilderConfig Rat :=
  ⟨.undirected, .single, [⟨"weight", none, 1⟩], false, false, 2, 3⟩

theorem oddUnmirrored : ∃ b layout, (IdMap.direct 3).Dense ∧ make (.direct 3) oddConfig = .ok b ∧
    oddConfig.orientation = .undirected ∧ oddConfig.layout = .ok layout ∧
    layout.folds = true ∧ ¬ Mirrors (.direct 3) oddConfig layout b 0 := by
  have dense : (IdMap.direct 3).Dense := IdMap.directDense (by decide)
  obtain ⟨b, made⟩ : ∃ b, make (.direct 3) oddConfig = .ok b := ⟨_, rfl⟩
  obtain ⟨layout, found, mirrors⟩ := undirectedMirrors dense made rfl
  obtain rfl : ⟨["weight"], [.single], .single⟩ = layout := Except.ok.inj found
  obtain ⟨-, properties⟩ := mirrors rfl
  refine ⟨b, _, dense, made, rfl, found, rfl, fun always => ?_⟩
  have mirrorable := (properties 0 .single rfl).2 (by decide) always
  have apart : ¬ Schedule.Settled 3 2 := by
    rintro (one | one | even)
    · cases one
    · cases one
    · exact absurd even (by decide)
  exact (mirrorable rfl).elim apart (by decide)

end Builder
end CommunityGraph
