import CommunityGraph.Proofs.Builder.Calls

/-! The memory that opening a builder takes. The slots and their buffers can be made so large that there is
not that much; the pages are all short. -/
namespace CommunityGraph

theorem StagedPage.blocksShort {nodeCount : Nat} (page : nodeCount ≤ AdjacencyBuffer.pageNodes)
    (propertyCount : Nat) : ∀ bytes ∈ blocks nodeCount propertyCount, bytes ≤ Memory.maxRequest := by
  intro bytes member
  have most : bytes ≤ nodeCount * 24 := by
    simp only [blocks, List.mem_append, List.mem_cons, List.not_mem_nil, or_false,
      List.mem_replicate] at member
    omega
  unfold AdjacencyBuffer.pageNodes at page
  unfold Memory.maxRequest
  omega

theorem AdjacencyBuffer.blocksShort (nodeCount propertyCount : Nat) :
    ∀ bytes ∈ blocks nodeCount propertyCount, bytes ≤ Memory.maxRequest := by
  intro bytes member
  rcases List.mem_cons.mp member with rfl | lists
  · exact Nat.min_le_right _ _
  · obtain ⟨page, -, inside⟩ := List.mem_flatMap.mp lists
    exact StagedPage.blocksShort (Nat.min_le_left _ _) propertyCount bytes inside

namespace Builder
variable {α : Type} {idMap : IdMap} {config : BuilderConfig α} {layout : PropertyLayout}
  {propertyCount : Nat}

def Affordable (config : BuilderConfig α) (propertyCount : Nat) : Prop :=
  Memory.canAsk config.concurrency BuilderSlot.bytes = true ∧
    LocalBuffer.canHold config.bufferSize propertyCount = true

instance (config : BuilderConfig α) (propertyCount : Nat) : Decidable (Affordable config propertyCount) :=
  inferInstanceAs (Decidable (_ ∧ _))

theorem pageBlocksShort (config : BuilderConfig α) (nodeCount propertyCount : Nat) :
    ∀ bytes ∈ pageBlocks config nodeCount propertyCount, bytes ≤ Memory.maxRequest := by
  have short := AdjacencyBuffer.blocksShort nodeCount propertyCount
  unfold pageBlocks
  rw [List.forall_mem_append]
  refine ⟨short, ?_⟩
  split_ifs
  · exact short
  · simp

theorem slotBlocksShort (some : 0 < config.concurrency) :
    (∀ bytes ∈ slotBlocks config propertyCount, bytes ≤ Memory.maxRequest) ↔
      LocalBuffer.canHold config.bufferSize propertyCount = true := by
  have same : ∀ bytes, bytes ∈ slotBlocks config propertyCount ↔
      bytes ∈ LocalBuffer.blocks config.bufferSize propertyCount := by
    intro bytes
    unfold slotBlocks BuilderSlot.blocks
    simp only [List.mem_flatten, List.mem_replicate]
    constructor
    · rintro ⟨_, ⟨-, rfl⟩, member⟩
      split_ifs at member <;> simpa using member
    · exact fun member => ⟨_, ⟨Nat.ne_of_gt some, rfl⟩, List.mem_append_left _ member⟩
  simp [same, LocalBuffer.blocks, LocalBuffer.canHold, Memory.canAsk]

theorem affordableBlocks (some : 0 < config.concurrency) (nodeCount : Nat) :
    Affordable config propertyCount ↔ ∀ bytes ∈ blocks config nodeCount propertyCount, bytes ≤ Memory.maxRequest := by
  rw [blocks, List.forall_mem_append, List.forall_mem_append, slotBlocksShort some,
    List.forall_mem_singleton]
  have slots : Memory.canAsk config.concurrency BuilderSlot.bytes = true ↔
    config.concurrency * BuilderSlot.bytes ≤ Memory.maxRequest := decide_eq_true_iff
  rw [Affordable, slots]
  exact (and_iff_left (pageBlocksShort config nodeCount propertyCount)).symm

theorem makeAffordable {m : Machine} {b : Builder α} (found : config.layout = .ok layout)
    (made : make idMap config m = .ok b) : Affordable config layout.propertyCount := by
  obtain ⟨layout', found', lends, -⟩ := makeOk made
  obtain rfl := Except.ok.inj (found.symm.trans found')
  exact (affordableBlocks (BuilderConfig.layoutValid found).concurrency _).mpr lends.asked

theorem makeAmple (idMap : IdMap) (found : config.layout = .ok layout) : make idMap config =
    if Affordable config layout.propertyCount then .ok (fresh idMap config layout)
    else .error .capacityOverflow := by
  have some := (BuilderConfig.layoutValid found).concurrency
  split_ifs with enough
  · exact makeLent found (Machine.ampleLends ((affordableBlocks some _).mp enough) 0)
  · cases made : make idMap config with
    | error e => rw [(Machine.ampleRefuses (makeError found made)).1]
    | ok b => exact absurd (makeAffordable found made) enough

section Workers
variable [Weight α] {b : Builder α} {m : Machine}

theorem buildOnGranted (workers : 0 < b.config.concurrency)
    (granted : m.refusal b.config.concurrency = none) : b.buildOn m = b.build := by
  rw [buildOn, WorkerPool.make, requirePositivePasses _ workers]
  simp only [granted]
  rfl

theorem buildOnRefused {reason : String} (workers : 0 < b.config.concurrency)
    (refused : m.refusal b.config.concurrency = some reason) :
    b.buildOn m = Run.fail (.workersUnavailable reason) := by
  rw [buildOn, WorkerPool.make, requirePositivePasses _ workers]
  simp only [refused]
  rfl

end Workers

end Builder
end CommunityGraph
