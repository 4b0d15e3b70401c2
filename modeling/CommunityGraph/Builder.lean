import CommunityGraph.Builder.Config
import CommunityGraph.IdMap
import CommunityGraph.SlotPool
import CommunityGraph.Staging.LocalBuffer

/-! Building relationships from single additions. Accepted additions go round the slots; building
drains the slots and compresses what was staged. A builder builds once. -/
namespace CommunityGraph

structure BuilderSlot (α : Type) where
  forward : LocalBuffer α
  inverse : Option (LocalBuffer α)

structure StagedLists (α : Type) where
  forward : AdjacencyBuffer α
  inverse : Option (AdjacencyBuffer α)

structure Builder (α : Type) where
  idMap : IdMap
  config : BuilderConfig α
  layout : PropertyLayout
  staged : StagedLists α
  slots : SlotPool (BuilderSlot α)
  built : Bool
  dropped : Nat

namespace BuilderSlot
variable {α : Type}

def bytes : Nat := 224

def make (bufferSize propertyCount : Nat) (indexInverse : Bool) : BuilderSlot α :=
  ⟨.make bufferSize propertyCount,
    if indexInverse then some (.make bufferSize propertyCount) else none⟩

def blocks (bufferSize propertyCount : Nat) (indexInverse : Bool) : List Nat :=
  LocalBuffer.blocks bufferSize propertyCount ++
    if indexInverse then LocalBuffer.blocks bufferSize propertyCount else []

def entries (orientation : Orientation) (source target : Nat) (values : List α) :
    List (StagedEntry α) :=
  match orientation with
  | .natural => [⟨source, UInt64.ofNat target, values⟩]
  | .reverse => [⟨target, UInt64.ofNat source, values⟩]
  | .undirected => [⟨source, UInt64.ofNat target, values⟩, ⟨target, UInt64.ofNat source, values⟩]

def inverseEntry (orientation : Orientation) (source target : Nat) (values : List α) :
    StagedEntry α :=
  match orientation with
  | .reverse => ⟨source, UInt64.ofNat target, values⟩
  | _ => ⟨target, UInt64.ofNat source, values⟩

def addAll (l : LocalBuffer α) (b : AdjacencyBuffer α) :
    List (StagedEntry α) → LocalBuffer α × AdjacencyBuffer α
  | [] => (l, b)
  | entry :: entries =>
      match l.add entry b with
      | (l, b) => addAll l b entries

def insert (orientation : Orientation) (source target : Nat) (values : List α)
    (slot : BuilderSlot α) (staged : StagedLists α) : BuilderSlot α × StagedLists α :=
  match slot, staged with
  | ⟨forward, some inverse⟩, ⟨lists, some inverseLists⟩ =>
      match addAll forward lists (entries orientation source target values) with
      | (forward, lists) =>
          match inverse.add (inverseEntry orientation source target values) inverseLists with
          | (inverse, inverseLists) => (⟨forward, some inverse⟩, ⟨lists, some inverseLists⟩)
  | ⟨forward, inverse⟩, ⟨lists, inverseLists⟩ =>
      match addAll forward lists (entries orientation source target values) with
      | (forward, lists) => (⟨forward, inverse⟩, ⟨lists, inverseLists⟩)

def flush (slot : BuilderSlot α) (staged : StagedLists α) : BuilderSlot α × StagedLists α :=
  match slot, staged with
  | ⟨forward, some inverse⟩, ⟨lists, some inverseLists⟩ =>
      match forward.flush lists with
      | (forward, lists) =>
          match inverse.flush inverseLists with
          | (inverse, inverseLists) => (⟨forward, some inverse⟩, ⟨lists, some inverseLists⟩)
  | ⟨forward, inverse⟩, ⟨lists, inverseLists⟩ =>
      match forward.flush lists with
      | (forward, lists) => (⟨forward, inverse⟩, ⟨lists, inverseLists⟩)

end BuilderSlot

namespace Builder
variable {α : Type}

def slotBlocks (config : BuilderConfig α) (propertyCount : Nat) : List Nat :=
  (List.replicate config.concurrency
    (BuilderSlot.blocks config.bufferSize propertyCount config.indexInverse)).flatten

def pageBlocks (config : BuilderConfig α) (nodeCount propertyCount : Nat) : List Nat :=
  AdjacencyBuffer.blocks nodeCount propertyCount ++
    if config.indexInverse then AdjacencyBuffer.blocks nodeCount propertyCount else []

def fresh (idMap : IdMap) (config : BuilderConfig α) (layout : PropertyLayout) : Builder α :=
  let buffer : AdjacencyBuffer α := .make idMap.nodeCount layout.propertyCount
  { idMap := idMap
    config := config
    layout := layout
    staged := ⟨buffer, if config.indexInverse then some buffer else none⟩
    slots := .ofList (List.replicate config.concurrency
      (.make config.bufferSize layout.propertyCount config.indexInverse))
    built := false
    dropped := 0 }

def make (idMap : IdMap) (config : BuilderConfig α) (m : Machine := .ample) :
    Except EngineError (Builder α) := do
  let layout ← config.layout
  let inUse ← m.reserve 0 [config.concurrency * BuilderSlot.bytes]
  let inUse ← m.reserve inUse (slotBlocks config layout.propertyCount)
  let _ ← m.reserve inUse (pageBlocks config idMap.nodeCount layout.propertyCount)
  .ok (fresh idMap config layout)

def nodeCount (b : Builder α) : Nat := b.staged.forward.nodeCount

def missing (idMap : IdMap) (ids : List Int) : List Int :=
  ids.filter fun id => (idMap.mapped? id).isNone

def insert (b : Builder α) (source target : Nat) (values : List α) :
    Except EngineError Unit × Builder α :=
  if b.built then (.error .builderClosed, b)
  else
    match b with
    | ⟨idMap, config, layout, staged, slots, built, dropped⟩ =>
        match slots.acquire with
        | .refused e => (.error e, ⟨idMap, config, layout, staged, slots, built, dropped⟩)
        | .busy =>
            (.error .builderClosed, ⟨idMap, config, layout, staged, slots, built, dropped⟩)
        | .leased index slots =>
            match slots.get? index with
            | none =>
                (.error .builderClosed, ⟨idMap, config, layout, staged, slots, built, dropped⟩)
            | some slot =>
                match slot.insert config.orientation source target values staged with
                | (slot, staged) =>
                    (.ok (), ⟨idMap, config, layout, staged,
                      (slots.update index slot).release index, built, dropped⟩)

def addMapped (b : Builder α) (source target : Int) (values : List α) :
    Except EngineError Unit × Builder α :=
  match b.idMap.mapped? source, b.idMap.mapped? target with
  | some s, some t => b.insert s t values
  | _, _ =>
      if b.config.skipDangling then (.ok (), { b with dropped := b.dropped + 1 })
      else (.error (.unmappedNodes (missing b.idMap [source, target])), b)

def add (b : Builder α) (source target : Int) :
    Except EngineError Unit × Builder α :=
  b.addMapped source target b.config.defaults

variable [Weight α]

def unusable? : List String → List α → Option EngineError
  | key :: keys, value :: values =>
      if Weight.isFinite value then unusable? keys values
      else some (.invalidPropertyValue key (Weight.text value))
  | _, _ => none

def valueFault? (layout : PropertyLayout) (values : List α) : Option EngineError :=
  if values.length ≠ layout.propertyCount then
    some (.dimensionMismatch (layout.blamedKey values.length) layout.propertyCount values.length)
  else unusable? layout.keys values

def addValues (b : Builder α) (source target : Int) (values : List α) :
    Except EngineError Unit × Builder α :=
  match valueFault? b.layout values with
  | some e => (.error e, b)
  | none => b.addMapped source target values

def addValue (b : Builder α) (source target : Int) (value : α) :
    Except EngineError Unit × Builder α := b.addValues source target [value]

def addInternal (b : Builder α) (source target : Nat) (values : List α) :
    Except EngineError Unit × Builder α :=
  if b.nodeCount ≤ source then (.error (.nodeOutOfRange source b.nodeCount), b)
  else if b.nodeCount ≤ target then (.error (.nodeOutOfRange target b.nodeCount), b)
  else
    match valueFault? b.layout values with
    | some e => (.error e, b)
    | none => b.insert source target values

def addEach {β : Type}
    (addOne : β → Builder α → Except EngineError Unit × Builder α) :
    List β → Builder α → Except EngineError Unit × Builder α
  | [], b => (.ok (), b)
  | x :: xs, b =>
      match addOne x b with
      | (.error e, b) => (.error e, b)
      | (.ok (), b) => addEach addOne xs b

def namedProperties (config : BuilderConfig α) (layout : PropertyLayout)
    (storage : Option (PropertyStorage α)) : List (RelationshipProperty α) :=
  match storage with
  | none => []
  | some storage =>
      (config.properties.zip layout.aggregations).mapIdx fun index (p, aggregation) =>
        ⟨p.key, aggregation, p.defaultValue, storage, index⟩

def compressed (buffer : AdjacencyBuffer α) (layout : PropertyLayout) (concurrency : Nat) :
    Run (CompressedAdjacency α) := fun t j =>
  match buffer.compress layout concurrency t j with
  | ((.error e, _), j) => (.error e, j)
  | ((.ok lists, _), j) => (.ok lists, j)

def drained (b : Builder α) : StagedLists α :=
  match b.slots.close BuilderSlot.flush b.staged with
  | none => b.staged
  | some (_, staged) => staged

def assemble (config : BuilderConfig α) (layout : PropertyLayout) (dropped : Nat)
    (staged : StagedLists α) : Run (Relationships α) := do
  if 0 < dropped then
    Run.log .warn "skipped relationships with unmapped endpoints" [("dropped", toString dropped)]
  let multigraph := !layout.folds
  let forward ← compressed staged.forward layout config.concurrency
  let inverse ← match staged.inverse with
    | none => pure none
    | some buffer => do
        let lists ← compressed buffer layout config.concurrency
        pure (some lists)
  Run.log .info "relationships built" []
  pure {
    topology := ⟨forward.list, config.orientation, multigraph⟩
    properties := namedProperties config layout forward.properties
    inverseTopology := inverse.map fun lists => ⟨lists.list, config.orientation, multigraph⟩
    inverseProperties :=
      namedProperties config layout (inverse.bind fun lists => lists.properties) }

def build (b : Builder α) : Run (Relationships α) :=
  if b.built then Run.fail .alreadyBuilt
  else assemble b.config b.layout b.dropped b.drained

def buildOn (m : Machine) (b : Builder α) : Run (Relationships α) := do
  let _ ← Run.ofExcept (WorkerPool.make b.config.concurrency m)
  b.build

def closed (b : Builder α) : Builder α :=
  if b.built then b
  else
    match b.slots.close BuilderSlot.flush b.staged with
    | none => { b with built := true }
    | some (slots, staged) => { b with built := true, slots := slots, staged := staged }

end Builder
end CommunityGraph
