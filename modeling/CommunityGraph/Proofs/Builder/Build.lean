import CommunityGraph.Proofs.Builder.Calls
import CommunityGraph.Proofs.Run
import CommunityGraph.Proofs.Staging.Compress

/-! Building compresses what the schedules have delivered in the end. -/
namespace CommunityGraph.Builder
open AdjacencyBuffer BuilderSlot
variable {α : Type}

def arrived (config : BuilderConfig α) (links : List (Link α)) : List (StagedEntry α) :=
  Schedule.arrivals config.bufferSize config.concurrency
    (links.map (Link.entries config.orientation))

def inverseArrived (config : BuilderConfig α) (links : List (Link α)) : List (StagedEntry α) :=
  Schedule.arrivals config.bufferSize config.concurrency
    (links.map (Link.inverseEntries config.orientation))

variable {idMap : IdMap} {config : BuilderConfig α} {layout : PropertyLayout}
  {links : List (Link α)} {b : Builder α}

theorem Runs.drained (runs : Runs idMap config layout links b) :
    Holds idMap.nodeCount layout.propertyCount (arrived config links) b.drained.forward ∧
      InverseHolds idMap.nodeCount layout.propertyCount config.indexInverse
        (inverseArrived config links) b.drained.inverse := by
  obtain ⟨pool, after, closed, lists, inverseLists⟩ := runs.staged.drained
  simp only [Builder.drained, closed]
  exact ⟨lists, inverseLists⟩

variable [Weight α] {nodeCount : Nat}

def Listed (nodeCount : Nat) (config : BuilderConfig α) (layout : PropertyLayout)
    (entries : List (StagedEntry α)) (adjacency : AdjacencyList)
    (properties : List (RelationshipProperty α)) : Prop :=
  ∃ store, Compacted nodeCount layout entries store ∧ adjacency = store.build.list ∧
    properties = namedProperties config layout store.build.properties

structure Built (nodeCount : Nat) (config : BuilderConfig α) (layout : PropertyLayout)
    (entries inverseEntries : List (StagedEntry α)) (r : Relationships α) : Prop where
  lists : Listed nodeCount config layout entries r.topology.adjacency r.properties
  inverse : config.indexInverse = true → ∃ topology, r.inverseTopology = some topology ∧
    Listed nodeCount config layout inverseEntries topology.adjacency r.inverseProperties

inductive BuildEnds (t : Termination) (nodeCount : Nat) (config : BuilderConfig α)
    (layout : PropertyLayout) (entries inverseEntries : List (StagedEntry α)) :
    Except EngineError (Relationships α) → Prop where
  | built {r : Relationships α} (finished : Built nodeCount config layout entries inverseEntries r) :
      BuildEnds t nodeCount config layout entries inverseEntries (.ok r)
  | stopped (stops : t.Stops) :
      BuildEnds t nodeCount config layout entries inverseEntries (.error .terminated)
  | exhausted {e : EngineError} (exhausts : Exhausts nodeCount layout entries e) :
      BuildEnds t nodeCount config layout entries inverseEntries (.error e)
  | inverseExhausted {e : EngineError} (inverted : config.indexInverse = true)
      (exhausts : Exhausts nodeCount layout inverseEntries e) :
      BuildEnds t nodeCount config layout entries inverseEntries (.error e)

theorem compressedEnds {entries : List (StagedEntry α)} {buffer : AdjacencyBuffer α}
    (holds : Holds nodeCount layout.propertyCount entries buffer) (concurrency : Nat)
    (t : Termination) (j : Journal) :
    CompressEnds t nodeCount layout entries (compressed buffer layout concurrency t j).1 := by
  have ended := compressEnds holds concurrency t j
  unfold compressed
  generalize buffer.compress layout concurrency t j = answer at ended ⊢
  obtain ⟨⟨outcome, rest⟩, later⟩ := answer
  cases outcome <;> exact ended

def gathered (config : BuilderConfig α) (layout : PropertyLayout) (forward : CompressedAdjacency α)
    (inverse : Option (CompressedAdjacency α)) : Relationships α where
  topology := ⟨forward.list, config.orientation, !layout.folds⟩
  properties := namedProperties config layout forward.properties
  inverseTopology := inverse.map fun lists => ⟨lists.list, config.orientation, !layout.folds⟩
  inverseProperties := namedProperties config layout (inverse.bind fun lists => lists.properties)

def compressBoth (config : BuilderConfig α) (layout : PropertyLayout) (staged : StagedLists α) :
    Run (Relationships α) := do
  let forward ← compressed staged.forward layout config.concurrency
  let inverse ← match staged.inverse with
    | none => pure none
    | some buffer => do
        let lists ← compressed buffer layout config.concurrency
        pure (some lists)
  Run.log .info "relationships built" []
  pure (gathered config layout forward inverse)

theorem assembleBoth (config : BuilderConfig α) (layout : PropertyLayout) (dropped : Nat)
    (staged : StagedLists α) (t : Termination) (j : Journal) :
    ∃ j', assemble config layout dropped staged t j = compressBoth config layout staged t j' := by
  unfold assemble
  by_cases any : 0 < dropped
  · rw [if_pos any]
    exact ⟨_, rfl⟩
  · rw [if_neg any]
    exact ⟨_, rfl⟩

theorem compressBothEnds {entries inverseEntries : List (StagedEntry α)} {staged : StagedLists α}
    (lists : Holds nodeCount layout.propertyCount entries staged.forward)
    (inverseLists : InverseHolds nodeCount layout.propertyCount config.indexInverse inverseEntries
      staged.inverse) (t : Termination) (j : Journal) :
    BuildEnds t nodeCount config layout entries inverseEntries
      (compressBoth config layout staged t j).1 := by
  have forwardEnds := compressedEnds lists config.concurrency t j
  rw [compressBoth, Run.bindApply]
  generalize compressed staged.forward layout config.concurrency t j = answer at forwardEnds ⊢
  obtain ⟨outcome, later⟩ := answer
  cases forwardEnds with
  | stopped stops => exact .stopped stops
  | exhausted exhausts => exact .exhausted exhausts
  | built compacted =>
    dsimp only
    unfold InverseHolds at inverseLists
    split at inverseLists
    · rename_i inverted
      obtain ⟨buffer, found, holds⟩ := inverseLists
      have inverseEnds := compressedEnds holds config.concurrency t later
      rw [found]
      dsimp only
      rw [Run.bindApply]
      generalize compressed buffer layout config.concurrency t later = answer at inverseEnds ⊢
      obtain ⟨outcome, last⟩ := answer
      cases inverseEnds with
      | stopped stops => exact .stopped stops
      | exhausted exhausts => exact .inverseExhausted inverted exhausts
      | built inverseCompacted =>
        exact .built ⟨⟨_, compacted, rfl, rfl⟩, fun _ => ⟨_, rfl, _, inverseCompacted, rfl, rfl⟩⟩
    · rename_i plain
      rw [inverseLists]
      exact .built ⟨⟨_, compacted, rfl, rfl⟩, fun inverted => absurd inverted plain⟩

theorem Runs.build (runs : Runs idMap config layout links b) (t : Termination) (j : Journal) :
    BuildEnds t idMap.nodeCount config layout (arrived config links) (inverseArrived config links)
      (b.build t j).1 := by
  obtain ⟨lists, inverseLists⟩ := runs.drained
  obtain ⟨j', same⟩ := assembleBoth config layout b.dropped b.drained t j
  rw [Builder.build, runs.opened, runs.settings, runs.properties]
  simp only [Bool.false_eq_true, if_false, same]
  exact compressBothEnds lists inverseLists t j'

def ShortOfMemory (nodeCount : Nat) (config : BuilderConfig α) (layout : PropertyLayout)
    (links : List (Link α)) (e : EngineError) : Prop :=
  Exhausts nodeCount layout (arrived config links) e ∨
    config.indexInverse = true ∧ Exhausts nodeCount layout (inverseArrived config links) e

def Delivers (t : Termination) (Short : EngineError → Prop) (Good : Relationships α → Prop) :
    Except EngineError (Relationships α) → Prop
  | .ok r => Good r
  | .error e => e = .terminated ∧ t.Stops ∨ Short e

theorem Runs.delivers (runs : Runs idMap config layout links b) (t : Termination) (j : Journal)
    {Good : Relationships α → Prop}
    (good : ∀ r, Built idMap.nodeCount config layout (arrived config links)
      (inverseArrived config links) r → Good r) :
    Delivers t (ShortOfMemory idMap.nodeCount config layout links) Good (b.build t j).1 := by
  have ended := runs.build t j
  generalize (b.build t j).1 = outcome at ended ⊢
  cases ended with
  | built finished => exact good _ finished
  | stopped stops => exact .inl ⟨rfl, stops⟩
  | exhausted exhausts => exact .inr (.inl exhausts)
  | inverseExhausted inverted exhausts => exact .inr (.inr ⟨inverted, exhausts⟩)

end CommunityGraph.Builder
