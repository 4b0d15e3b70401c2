import CommunityGraph.Proofs.Builder.Lifecycle
import CommunityGraph.Proofs.Builder.Transpose

/-! A builder with one slot. What it takes arrives in the order in which it was added, whenever the slot
is emptied, so what is built does not depend on how much the slot holds back. -/
namespace CommunityGraph
variable {α : Type}

def BuilderConfig.buffering (config : BuilderConfig α) (size : Nat) : BuilderConfig α :=
  { config with bufferSize := size }

namespace Builder
open AdjacencyBuffer BuilderSlot Relationships Link
variable {idMap : IdMap} {config : BuilderConfig α} {layout : PropertyLayout}
  {links : List (Link α)} {b : Builder α} {nodeCount : Nat}

theorem arrivedAlone (alone : config.concurrency = 1) (links : List (Link α)) :
    arrivedLinks config links = links.flatMap (Link.oriented config.orientation) := by
  rw [arrivedLinks, alone, Schedule.arrivalsAlone, List.flatMap_def]

theorem Runs.sameDrained {other : BuilderConfig α} {c : Builder α}
    (runs : Runs idMap config layout links b) (runs' : Runs idMap other layout links c)
    (indexed : other.indexInverse = config.indexInverse)
    (same : arrived other links = arrived config links)
    (inverseSame : inverseArrived other links = inverseArrived config links) :
    c.drained = b.drained := by
  obtain ⟨lists, inverse⟩ := runs.drained
  obtain ⟨lists', inverse'⟩ := runs'.drained
  rw [same] at lists'
  rw [indexed, inverseSame] at inverse'
  generalize b.drained = drained at lists inverse ⊢
  generalize c.drained = drained' at lists' inverse' ⊢
  obtain ⟨forward, backward⟩ := drained
  obtain ⟨forward', backward'⟩ := drained'
  obtain rfl : forward' = forward := lists'.unique lists
  obtain rfl : backward' = backward := inverse'.unique inverse
  rfl

variable [Weight α] {adjacency : AdjacencyList} {properties : List (RelationshipProperty α)}

theorem performAllCalls (b : Builder α) (additions : List (Addition α)) :
    b.performAll additions = b.serveAll (additions.map .add) := by
  induction additions generalizing b with
  | nil => rfl
  | cons addition additions ih => exact ih _

theorem droppedAfter (valid : config.Valid layout) (runs : Runs idMap config layout [] b)
    (uncounted : b.dropped = 0) (additions : List (Addition α)) :
    (b.performAll additions).dropped = additions.countP (dangles idMap config layout) := by
  rw [performAllCalls, runs.serving.dropped valid, uncounted, Nat.zero_add, List.countP_map]
  rfl

structure Ordered (nodeCount : Nat) (layout : PropertyLayout) (links : List (Link α))
    (adjacency : AdjacencyList) (properties : List (RelationshipProperty α)) : Prop where
  tells : Tells nodeCount layout links links adjacency properties
  kept : layout.folds = false → ∀ source < nodeCount, ∀ target < nodeCount,
    rowsTo target (listed adjacency properties source) = between source target links
  first : ∀ source < nodeCount, ∀ target < nodeCount,
    ∀ (index : Nat) (property : RelationshipProperty α), properties[index]? = some property →
    layout.aggregations[index]? = some .single →
    Row.foundAt target (adjacency.targets source) (property.values source) =
      ((between source target links).filterMap fun values => values[index]?).head?.toList

theorem listedOrdered
    (lists : Listed nodeCount config layout (links.map Link.stage) adjacency properties)
    (valid : config.Valid layout) (words : nodeCount ≤ UInt64.size)
    (inside : Inside nodeCount links) (full : Full layout.propertyCount links) :
    Ordered nodeCount layout links adjacency properties := by
  have tells := listedTells lists valid words inside full (.refl links)
  refine ⟨tells, fun keeps source here target there => ?_, ?_⟩
  · have between := lists.between valid words inside here there
    rwa [Row.collapsed, keeps] at between
  · intro source here target there index property found single
    have folds := PropertyLayout.makeFoldsAny valid.made (List.mem_of_getElem? single) rfl
    obtain ⟨a, policy, merged⟩ := tells.merged folds source here target there index property found
    obtain rfl : a = .single := Option.some.inj (policy.symm.trans single)
    rw [merged, Aggregation.foldSingle]

theorem Built.ordered {r : Relationships α}
    (built : Built nodeCount config layout (arrived config links) (inverseArrived config links) r)
    (alone : config.concurrency = 1) (valid : config.Valid layout)
    (words : nodeCount ≤ UInt64.size) (inside : Inside nodeCount links)
    (full : Full layout.propertyCount links) :
    Ordered nodeCount layout (links.flatMap (Link.oriented config.orientation))
        r.topology.adjacency r.properties ∧
      (config.indexInverse = true → ∃ topology, r.inverseTopology = some topology ∧
        Ordered nodeCount layout
          ((links.flatMap (Link.oriented config.orientation)).map Link.swap)
          topology.adjacency r.inverseProperties) := by
  have insideAll := orientedInside inside config.orientation
  have fullAll := orientedFull full config.orientation
  have lists := built.lists
  rw [arrivedStaged, arrivedAlone alone] at lists
  refine ⟨listedOrdered lists valid words insideAll fullAll, fun indexed => ?_⟩
  obtain ⟨topology, there, inverseLists⟩ := built.inverse indexed
  rw [inverseStaged (valid.oneWay indexed), arrivedAlone alone] at inverseLists
  have fullSwapped : Full layout.propertyCount
      ((links.flatMap (Link.oriented config.orientation)).map Link.swap) := by
    intro link member
    obtain ⟨original, taken, rfl⟩ := List.mem_map.mp member
    exact fullAll original taken
  exact ⟨topology, there, listedOrdered inverseLists valid words (swapInside insideAll) fullSwapped⟩

section Buffering
variable (idMap config layout)

theorem buffersLink (size : Nat) :
    link? idMap (config.buffering size) layout = link? idMap config layout := by
  funext addition
  cases addition <;> rfl

theorem buffersDangles (size : Nat) :
    dangles idMap (config.buffering size) layout = dangles idMap config layout := by
  funext addition
  cases addition <;> rfl

end Buffering

theorem buffersBuild (alone : config.concurrency = 1) (made : make idMap config = .ok b) {size : Nat}
    {c : Builder α} (other : make idMap (config.buffering size) = .ok c)
    (additions : List (Addition α)) (t : Termination) (j : Journal) :
    (c.performAll additions).build t j = (b.performAll additions).build t j := by
  obtain ⟨layout, -, valid, runs⟩ := makeRuns made
  obtain ⟨layout', -, valid', runs'⟩ := makeRuns other
  obtain rfl : layout = layout' := Except.ok.inj (valid.made.symm.trans valid'.made)
  have dropped := droppedAfter valid runs (makeDropped made) additions
  have dropped' := droppedAfter valid' runs' (makeDropped other) additions
  have after := runs.performAll valid additions
  have after' := runs'.performAll valid' additions
  rw [buffersDangles] at dropped'
  rw [buffersLink] at after'
  have alone' : (config.buffering size).concurrency = 1 := alone
  have drained : (c.performAll additions).drained = (b.performAll additions).drained := by
    refine after.sameDrained after' rfl ?_ ?_
    · rw [arrivedStaged, arrivedStaged, arrivedAlone alone, arrivedAlone alone']
      rfl
    · simp only [inverseArrived, BuilderConfig.buffering, alone, Schedule.arrivalsAlone]
  rw [Builder.build, Builder.build, after.opened, after'.opened, after.settings, after'.settings,
    after.properties, after'.properties, dropped, dropped', drained]
  rfl

/-- With one slot parallel relationships keep, or are merged in, the order in which they were added. -/
theorem addedInOrder (dense : idMap.Dense) (alone : config.concurrency = 1)
    (made : make idMap config = .ok b) (additions : List (Addition α)) (t : Termination)
    (j : Journal) :
    ∃ layout, config.layout = .ok layout ∧
      (∀ before addition after, additions = before ++ addition :: after →
        ((b.performAll before).Takes addition ↔
          (link? idMap config layout addition).isSome)) ∧
      Delivers t (ShortOfMemory idMap.nodeCount config layout
          (additions.filterMap (link? idMap config layout)))
        (fun r => Ordered idMap.nodeCount layout
            ((additions.filterMap (link? idMap config layout)).flatMap
              (Link.oriented config.orientation))
            r.topology.adjacency r.properties ∧
          (config.indexInverse = true → ∃ topology, r.inverseTopology = some topology ∧
            Ordered idMap.nodeCount layout
              (((additions.filterMap (link? idMap config layout)).flatMap
                (Link.oriented config.orientation)).map Link.swap)
              topology.adjacency r.inverseProperties))
        ((b.performAll additions).build t j).1 ∧
      ∀ size c, make idMap (config.buffering size) = .ok c →
        (c.performAll additions).build t j = (b.performAll additions).build t j := by
  obtain ⟨layout, found, valid, runs⟩ := makeRuns made
  refine ⟨layout, found, fun before addition _ _ =>
    takesLink (runs.performAll valid before) valid addition, ?_,
    fun size c other => buffersBuild alone made other additions t j⟩
  exact (runs.performAll valid additions).delivers t j fun r built =>
    built.ordered alone valid dense.words (linksInside dense config layout additions)
      (linksFull idMap valid additions)

def loneConfig : BuilderConfig Rat := { sampleConfig with concurrency := 1 }

theorem sampleOrdered : ∃ b c r, (IdMap.direct 3).Dense ∧ loneConfig.concurrency = 1 ∧
    make (.direct 3) loneConfig = .ok b ∧ make (.direct 3) (loneConfig.buffering 1) = .ok c ∧
    ((b.performAll sampleAdditions).build .always .empty).1 = .ok r ∧
    ((c.performAll sampleAdditions).build .always .empty).1 = .ok r ∧
    ∀ property, r.properties[0]? = some property →
      Row.foundAt 1 (r.topology.adjacency.targets 0) (property.values 0) = [5] := by
  have dense : (IdMap.direct 3).Dense := IdMap.directDense (by decide)
  obtain ⟨b, made⟩ : ∃ b, make (.direct 3) loneConfig = .ok b := ⟨_, rfl⟩
  obtain ⟨c, other⟩ : ∃ c, make (.direct 3) (loneConfig.buffering 1) = .ok c := ⟨_, rfl⟩
  have works : (outcome (.direct 3) loneConfig sampleAdditions).toBool = true := by cbv
  obtain ⟨r, built⟩ := outcomeOk made works
  obtain ⟨layout, found, -, delivered, same⟩ :=
    addedInOrder dense rfl made sampleAdditions .always .empty
  obtain rfl := Except.ok.inj found
  rw [built] at delivered
  have again := (congrArg Prod.fst (same 1 c other)).trans built
  refine ⟨b, c, r, dense, rfl, made, other, built, again, fun property there => ?_⟩
  rw [delivered.1.first 0 (by decide) 1 (by decide) 0 property there rfl]
  cbv

end Builder
end CommunityGraph
