import CommunityGraph.Decimal.Double
import CommunityGraph.Proofs.Builder.Correctness

/-! The values that a builder holds come from the relationships that it took. A value that a caller
gives is finite, but the defaults are taken as they are: they are what can bring in another. -/
namespace CommunityGraph
variable {α : Type}

namespace Aggregation
variable [Weight α]

theorem foldKeeps {P : α → Prop} {a : Aggregation}
    (closed : ∀ x y, P x → P y → P (a.merge x y)) {values : List α} (all : ∀ x ∈ values, P x)
    {result : α} (folded : a.fold? values = some result) : P result := by
  cases values with
  | nil => cases folded
  | cons first rest =>
    obtain rfl := Option.some.inj folded
    refine List.foldlRecOn rest a.merge (all first (by simp)) fun x px y member => ?_
    exact closed x y px (all y (List.mem_cons_of_mem _ member))

theorem mergeSelects {a : Aggregation} (selective : a ≠ .sum) (x y : Float) :
    a.merge x y = x ∨ a.merge x y = y := by
  cases a with
  | sum => exact absurd rfl selective
  | min =>
    simp only [merge, Weight.least, leastDouble]
    split
    · exact .inr rfl
    · exact .inl rfl
  | max =>
    simp only [merge, Weight.greatest, greatestDouble]
    split
    · exact .inr rfl
    · exact .inl rfl
  | none => exact .inl rfl
  | single => exact .inl rfl

end Aggregation

theorem Row.arrangeKeeps [Weight α] {P : α → Prop} {layout : PropertyLayout} {index count : Nat}
    {a : Aggregation} (policy : layout.aggregations[index]? = some a) (inside : index < count)
    (closed : ∀ x y, P x → P y → P (a.merge x y)) {rows : List (Row α)} (wide : Wide count rows)
    (all : ∀ value ∈ column rows index, P value) :
    ∀ value ∈ column (arrange layout rows) index, P value := by
  intro value member
  obtain ⟨row, arranged, found⟩ := List.mem_filterMap.mp member
  have among : ∀ x ∈ (valuesAt row.target rows).filterMap (fun values => values[index]?), P x := by
    intro x there
    obtain ⟨values, here, at_⟩ := List.mem_filterMap.mp there
    obtain ⟨source, chosen, rfl⟩ := List.mem_map.mp here
    exact all x (List.mem_filterMap.mpr ⟨source, List.mem_of_mem_filter chosen, at_⟩)
  have here : value ∈ (valuesAt row.target (arrange layout rows)).filterMap
      (fun values => values[index]?) := by
    refine List.mem_filterMap.mpr ⟨row.values, ?_, found⟩
    exact List.mem_map.mpr ⟨row, List.mem_filter.mpr ⟨arranged, by simp⟩, rfl⟩
  rw [valuesAtArrange, collapsed] at here
  split at here
  · rw [columnMerged policy inside (wide.valuesAt row.target)] at here
    exact Aggregation.foldKeeps closed among (Option.mem_toList.mp here)
  · exact among value here

def StagedEntry.valuesOf (entries : List (StagedEntry α)) : List α :=
  entries.flatMap StagedEntry.values

def StagedList.heldValues (list : StagedList α) : List α := list.values.flatten

def AdjacencyBuffer.heldValues (b : AdjacencyBuffer α) : List α :=
  b.pages.toList.flatMap fun page => page.lists.toList.flatMap StagedList.heldValues

def LocalBuffer.heldValues (l : LocalBuffer α) : List α := StagedEntry.valuesOf l.held

def BuilderSlot.heldValues (slot : BuilderSlot α) : List α :=
  slot.forward.heldValues ++ slot.inverse.toList.flatMap LocalBuffer.heldValues

def Builder.stagedValues (b : Builder α) : List α :=
  b.slots.slots.toList.flatMap BuilderSlot.heldValues ++ b.staged.forward.heldValues ++
    b.staged.inverse.toList.flatMap AdjacencyBuffer.heldValues

theorem Row.columnsValues {count : Nat} {rows : List (Row α)} (wide : Row.Wide count rows)
    {value : α} : value ∈ (columns count rows).flatten ↔ ∃ row ∈ rows, value ∈ row.values := by
  constructor
  · intro member
    obtain ⟨column, listed, inside⟩ := List.mem_flatten.mp member
    obtain ⟨index, -, rfl⟩ := List.mem_map.mp listed
    obtain ⟨row, there, found⟩ := List.mem_filterMap.mp inside
    exact ⟨row, there, List.mem_of_getElem? found⟩
  · rintro ⟨row, there, inside⟩
    obtain ⟨index, found⟩ := List.getElem?_of_mem inside
    have small : index < count := wide row there ▸ (List.getElem?_eq_some_iff.mp found).1
    refine List.mem_flatten.mpr ⟨column rows index, ?_, List.mem_filterMap.mpr ⟨row, there, found⟩⟩
    exact List.mem_map.mpr ⟨index, List.mem_range.mpr small, rfl⟩

namespace AdjacencyBuffer
open StagedEntry
variable {nodeCount count : Nat} {entries : List (StagedEntry α)} {b : AdjacencyBuffer α}

theorem Holds.heldValues (holds : Holds nodeCount count entries b)
    (inside : ∀ entry ∈ entries, entry.source < nodeCount) {value : α} :
    value ∈ b.heldValues ↔ value ∈ valuesOf entries := by
  constructor
  · intro member
    obtain ⟨page, listed, here⟩ := List.mem_flatMap.mp member
    obtain ⟨list, there, held⟩ := List.mem_flatMap.mp here
    obtain ⟨number, found⟩ := Array.getElem?_of_mem (Array.mem_toList_iff.mp listed)
    obtain ⟨offset, at_⟩ := Array.getElem?_of_mem (Array.mem_toList_iff.mp there)
    have keeps := holds.keeps number page offset list found at_
    rw [StagedList.heldValues, keeps.values, Row.columnsValues keeps.wide] at held
    obtain ⟨row, rows, among⟩ := held
    obtain ⟨entry, chosen, rfl⟩ := List.mem_map.mp rows
    exact List.mem_flatMap.mpr ⟨entry, List.mem_of_mem_filter chosen, among⟩
  · intro member
    obtain ⟨entry, taken, among⟩ := List.mem_flatMap.mp member
    have small := inside entry taken
    have size : pageNodes = 4096 := rfl
    have pageInside : entry.source / pageNodes < b.pages.size := by
      rw [holds.pages, ceilDiv, size]
      omega
    obtain ⟨page, found⟩ : ∃ page, b.pages[entry.source / pageNodes]? = some page :=
      ⟨_, Array.getElem?_eq_getElem pageInside⟩
    have offsetInside : entry.source % pageNodes < page.lists.size := by
      rw [holds.lists _ page found, size]
      omega
    obtain ⟨list, at_⟩ : ∃ list, page.lists[entry.source % pageNodes]? = some list :=
      ⟨_, Array.getElem?_eq_getElem offsetInside⟩
    have keeps := holds.keeps _ page _ list found at_
    rw [Nat.div_add_mod'] at keeps
    refine List.mem_flatMap.mpr ⟨page, Array.mem_toList_iff.mpr (Array.mem_of_getElem? found),
      List.mem_flatMap.mpr ⟨list, Array.mem_toList_iff.mpr (Array.mem_of_getElem? at_), ?_⟩⟩
    rw [StagedList.heldValues, keeps.values, Row.columnsValues keeps.wide]
    exact ⟨entry.row, List.mem_map_of_mem (List.mem_filter.mpr ⟨taken, by simp⟩), among⟩

end AdjacencyBuffer

theorem SlotPool.Queue.perm {p : SlotPool α} {queue : List α} (valid : p.Queue queue) :
    queue.Perm p.slots.toList := by
  have inside : p.free ⊆ List.range p.slots.size := by
    intro index member
    have held : p.slots[index]? ∈ queue.map some := valid.held ▸ List.mem_map_of_mem member
    obtain ⟨slot, -, found⟩ := List.mem_map.mp held
    exact List.mem_range.mpr (Array.getElem?_eq_some_iff.mp found.symm).1
  have free : p.free.Perm (List.range p.slots.size) :=
    (List.subperm_of_subset valid.distinct inside).perm_of_length_le (by simp [valid.whole])
  have all : (List.range p.slots.size).map (fun index => p.slots[index]?) =
      p.slots.toList.map some := by
    apply List.ext_getElem?
    intro index
    by_cases small : index < p.slots.size
    · simp [small]
    · simp [small]
  have same := free.map fun index => p.slots[index]?
  rw [valid.held, all] at same
  simpa using same.filterMap id

namespace Builder
open StagedEntry AdjacencyBuffer BuilderSlot
variable {nodeCount count capacity : Nat} {inverted : Bool}
  {forward inverse : Schedule.State (StagedEntry α)} {slots : SlotPool (BuilderSlot α)}
  {staged : StagedLists α}

theorem heldBoth (capacity count : Nat) (inverted : Bool)
    (pending : List (StagedEntry α) × List (StagedEntry α)) {value : α} :
    value ∈ (holdingBoth capacity count inverted pending).heldValues ↔
      value ∈ valuesOf pending.1 ∨ inverted = true ∧ value ∈ valuesOf pending.2 := by
  cases inverted <;>
    simp [holdingBoth, BuilderSlot.heldValues, LocalBuffer.heldValues, LocalBuffer.holding, valuesOf]

theorem Staged.heldValues
    (h : Staged nodeCount count capacity inverted forward inverse slots staged)
    (inside : ∀ entry ∈ forward.drained, entry.source < nodeCount)
    (inverseInside : ∀ entry ∈ inverse.drained, entry.source < nodeCount) {value : α} :
    value ∈ slots.slots.toList.flatMap BuilderSlot.heldValues ++ staged.forward.heldValues ++
        staged.inverse.toList.flatMap AdjacencyBuffer.heldValues ↔
      value ∈ valuesOf forward.drained ∨ inverted = true ∧ value ∈ valuesOf inverse.drained := by
  obtain ⟨waiting, queue, forwardWaiting, inverseWaiting⟩ := h.queue
  have inSlots : value ∈ slots.slots.toList.flatMap BuilderSlot.heldValues ↔
      value ∈ valuesOf forward.waiting.flatten ∨
        inverted = true ∧ value ∈ valuesOf inverse.waiting.flatten := by
    have flat : ∀ f : List (StagedEntry α) × List (StagedEntry α) → List (StagedEntry α),
        valuesOf (waiting.map f).flatten = waiting.flatMap fun pending => valuesOf (f pending) := by
      intro f
      rw [valuesOf, ← List.flatMap_def, List.flatMap_assoc]
      rfl
    rw [← (queue.perm.flatMap_right _).mem_iff, forwardWaiting, inverseWaiting, flat, flat]
    simp only [List.flatMap_map, List.mem_flatMap (l := waiting), heldBoth, and_or_left, exists_or,
      and_left_comm, exists_and_left]
  have inLists : value ∈ staged.forward.heldValues ↔ value ∈ valuesOf forward.delivered :=
    h.lists.heldValues fun entry member => inside entry (List.mem_append_left _ member)
  have inInverse : value ∈ staged.inverse.toList.flatMap AdjacencyBuffer.heldValues ↔
      inverted = true ∧ value ∈ valuesOf inverse.delivered := by
    have lists := h.inverseLists
    unfold InverseHolds at lists
    split at lists
    · rename_i inverted
      obtain ⟨buffer, found, holds⟩ := lists
      have held : value ∈ buffer.heldValues ↔ value ∈ valuesOf inverse.delivered :=
        holds.heldValues fun entry member => inverseInside entry (List.mem_append_left _ member)
      simp [found, inverted, held]
    · rename_i plain
      simp [lists, plain]
  simp only [List.mem_append, inSlots, inLists, inInverse, Schedule.State.drained, valuesOf,
    List.flatMap_append, and_or_left]
  exact iff_of_eq (by ac_rfl)

end Builder

def Link.valuesOf (links : List (Link α)) : List α := links.flatMap Link.values

namespace Builder
open StagedEntry AdjacencyBuffer BuilderSlot Link
variable {idMap : IdMap} {config : BuilderConfig α} {layout : PropertyLayout}
  {links : List (Link α)} {nodeCount : Nat} {value : α}

structure Carries (f : Link α → List (StagedEntry α)) : Prop where
  some : ∀ link, ∃ entry, entry ∈ f link
  same : ∀ link, ∀ entry ∈ f link, entry.values = link.values ∧
    (entry.source = link.source ∨ entry.source = link.target)

theorem entriesCarry (orientation : Orientation) :
    Carries (Link.entries orientation : Link α → List (StagedEntry α)) where
  some link := by
    cases orientation <;> exact ⟨_, .head _⟩
  same link entry member := by
    cases orientation <;> simp only [Link.entries, BuilderSlot.entries, List.mem_cons,
      List.not_mem_nil, or_false] at member
    · exact member ▸ ⟨rfl, .inl rfl⟩
    · exact member ▸ ⟨rfl, .inr rfl⟩
    · rcases member with rfl | rfl
      · exact ⟨rfl, .inl rfl⟩
      · exact ⟨rfl, .inr rfl⟩

theorem inverseCarry (orientation : Orientation) :
    Carries (Link.inverseEntries orientation : Link α → List (StagedEntry α)) where
  some link := ⟨_, .head _⟩
  same link entry member := by
    obtain rfl := List.mem_singleton.mp member
    cases orientation
    · exact ⟨rfl, .inr rfl⟩
    · exact ⟨rfl, .inl rfl⟩
    · exact ⟨rfl, .inr rfl⟩

section Carried
variable {f : Link α → List (StagedEntry α)}

theorem Carries.arrival (carries : Carries f) (valid : config.Valid layout)
    {entry : StagedEntry α} (member : entry ∈
      Schedule.arrivals config.bufferSize config.concurrency (links.map f)) :
    ∃ link ∈ links, entry.values = link.values ∧
      (entry.source = link.source ∨ entry.source = link.target) := by
  have perm := Schedule.arrivalsPerm config.bufferSize valid.concurrency (links.map f)
  obtain ⟨entries, listed, here⟩ := List.mem_flatten.mp (perm.mem_iff.mp member)
  obtain ⟨link, taken, rfl⟩ := List.mem_map.mp listed
  exact ⟨link, taken, carries.same link entry here⟩

theorem Carries.inside (carries : Carries f) (valid : config.Valid layout)
    (inside : Inside nodeCount links) : ∀ entry ∈
      Schedule.arrivals config.bufferSize config.concurrency (links.map f),
      entry.source < nodeCount := by
  intro entry member
  obtain ⟨link, taken, -, source | target⟩ := carries.arrival valid member
  · exact source ▸ (inside link taken).1
  · exact target ▸ (inside link taken).2

theorem Carries.values (carries : Carries f) (valid : config.Valid layout) :
    value ∈ StagedEntry.valuesOf
        (Schedule.arrivals config.bufferSize config.concurrency (links.map f)) ↔
      value ∈ Link.valuesOf links := by
  constructor
  · intro member
    obtain ⟨entry, arrived, here⟩ := List.mem_flatMap.mp member
    obtain ⟨link, taken, same, -⟩ := carries.arrival valid arrived
    exact List.mem_flatMap.mpr ⟨link, taken, same ▸ here⟩
  · intro member
    obtain ⟨link, taken, here⟩ := List.mem_flatMap.mp member
    obtain ⟨entry, carried⟩ := carries.some link
    have perm := Schedule.arrivalsPerm config.bufferSize valid.concurrency (links.map f)
    refine List.mem_flatMap.mpr ⟨entry, perm.mem_iff.mpr ?_, (carries.same link entry carried).1 ▸ here⟩
    exact List.mem_flatten.mpr ⟨f link, List.mem_map_of_mem taken, carried⟩

end Carried

theorem Runs.stagedValues {b : Builder α} (runs : Runs idMap config layout links b)
    (valid : config.Valid layout) (inside : Inside idMap.nodeCount links) :
    value ∈ b.stagedValues ↔ value ∈ Link.valuesOf links := by
  have held : value ∈ b.stagedValues ↔ _ := runs.staged.heldValues
    ((entriesCarry config.orientation).inside valid inside)
    ((inverseCarry config.orientation).inside valid inside)
  have forward : value ∈ StagedEntry.valuesOf (forwardState config links).drained ↔ _ :=
    (entriesCarry config.orientation).values valid
  have inverse : value ∈ StagedEntry.valuesOf (inverseState config links).drained ↔ _ :=
    (inverseCarry config.orientation).values valid
  rw [held, forward, inverse, or_iff_left_of_imp And.right]

def Unfilled (idMap : IdMap) (additions : List (Addition α)) : Prop :=
  ∀ source target, .plain source target ∈ additions →
    idMap.mapped? source = none ∨ idMap.mapped? target = none

variable [Weight α]

theorem linkValues {additions : List (Addition α)} {link : Link α}
    (member : link ∈ additions.filterMap (link? idMap config layout)) :
    link.values = config.defaults ∧ ¬ Unfilled idMap additions ∨
      ∀ value ∈ link.values, Weight.isFinite value = true := by
  obtain ⟨addition, asked, made⟩ := List.mem_filterMap.mp member
  cases addition with
  | plain source target =>
    refine .inl ⟨mappedFull made, fun unfilled => ?_⟩
    have none : mappedLink? idMap source target config.defaults = none :=
      mappedNone.mpr (unfilled source target asked)
    cases none.symm.trans made
  | valued source target values =>
    simp only [link?, Option.ite_none_right_eq_some] at made
    rw [mappedFull made.2]
    exact .inr made.1.2
  | internal source target values =>
    simp only [link?, Option.ite_none_right_eq_some, Option.some.injEq] at made
    obtain ⟨⟨-, -, usable⟩, rfl⟩ := made
    exact .inr usable.2

theorem takenFinite (idMap : IdMap) (config : BuilderConfig α) (layout : PropertyLayout)
    (additions : List (Addition α)) :
    (∀ value ∈ Link.valuesOf (additions.filterMap (link? idMap config layout)),
        Weight.isFinite value = true) ↔
      (∀ value ∈ config.defaults, Weight.isFinite value = true) ∨ Unfilled idMap additions := by
  constructor
  · intro finite
    refine or_iff_not_imp_right.mpr fun filled value member => ?_
    obtain ⟨source, target, asked, mapped⟩ : ∃ source target, .plain source target ∈ additions ∧
        ¬ (idMap.mapped? source = none ∨ idMap.mapped? target = none) := by
      simpa [Unfilled] using filled
    obtain ⟨link, made⟩ : ∃ link, mappedLink? idMap source target config.defaults = some link :=
      Option.ne_none_iff_exists'.mp fun none => mapped (mappedNone.mp none)
    refine finite value (List.mem_flatMap.mpr ⟨link, ?_, (mappedFull made).symm ▸ member⟩)
    exact List.mem_filterMap.mpr ⟨_, asked, made⟩
  · intro safe value member
    obtain ⟨link, taken, here⟩ := List.mem_flatMap.mp member
    rcases linkValues taken with ⟨defaults, filled⟩ | finite
    · exact safe.resolve_right filled value (defaults ▸ here)
    · exact finite value here

variable {adjacency : AdjacencyList} {properties : List (RelationshipProperty α)}
  {entries : List (StagedEntry α)} {property : RelationshipProperty α}

omit [Weight α] in
theorem namedDefault {storage : PropertyStorage α} {index : Nat}
    (found : (namedProperties config layout (some storage))[index]? = some property) :
    config.defaults[index]? = some property.defaultValue ∧
      layout.aggregations[index]? = some property.aggregation ∧
      property.storage = storage ∧ property.index = index := by
  simp only [namedProperties, List.getElem?_mapIdx, Option.map_eq_some_iff, Prod.exists,
    List.getElem?_zip_eq_some] at found
  obtain ⟨p, a, ⟨declared, policy⟩, rfl⟩ := found
  exact ⟨by simp [BuilderConfig.defaults, declared], policy, rfl, rfl⟩

theorem Listed.readKeeps {P : α → Prop}
    (lists : Listed nodeCount config layout entries adjacency properties)
    (valid : config.Valid layout) (full : Full layout.propertyCount entries)
    (member : property ∈ properties)
    (closed : ∀ x y, P x → P y → P (property.aggregation.merge x y))
    (all : ∀ index : Nat, config.defaults[index]? = some property.defaultValue →
      ∀ entry ∈ entries, ∀ value, entry.values[index]? = some value → P value)
    {node : Nat} {values : List α} (read : property.values? node = some values) :
    ∀ value ∈ values, P value := by
  obtain ⟨index, found⟩ := List.getElem?_of_mem member
  have small : index < layout.propertyCount :=
    lists.length valid ▸ (List.getElem?_eq_some_iff.mp found).1
  obtain ⟨store, compacted, same, named⟩ := lists
  have any : 0 < store.layout.propertyCount := compacted.properties ▸ Nat.zero_lt_of_lt small
  rw [named, AdjacencyStore.buildProperties any] at found
  obtain ⟨default, policy, storage, -⟩ := namedDefault found
  by_cases inside : node < nodeCount
  · have reads := Listed.reads ⟨store, compacted, same, named⟩ valid inside
    rw [named, AdjacencyStore.buildProperties any] at reads
    obtain rfl := Option.some.inj ((reads.values index property found).symm.trans read)
    refine Row.arrangeKeeps policy small closed (full.rows node) fun value held => ?_
    obtain ⟨row, chosen, here⟩ := List.mem_filterMap.mp held
    obtain ⟨entry, taken, rfl⟩ := List.mem_map.mp chosen
    exact all index default entry (List.mem_of_mem_filter taken) value here
  · -- beyond the nodes there is no degree to read
    have none : store.degrees[node]? = none := by
      rw [Array.getElem?_eq_none_iff, compacted.sound.degrees, compacted.nodes]
      exact Nat.not_lt.mp inside
    rw [RelationshipProperty.values?, storage] at read
    simp [PropertyStorage.values?, AdjacencyStore.storage, none] at read

def ReadsFinite (idMap : IdMap) (additions : List (Addition Float))
    (properties : List (RelationshipProperty Float)) : Prop :=
  ∀ property ∈ properties, property.aggregation ≠ .sum →
    property.defaultValue.isFinite = true ∨ Unfilled idMap additions →
    ∀ node values, property.values? node = some values → ∀ value ∈ values, value.isFinite = true

section Doubles
variable {config : BuilderConfig Float} {additions : List (Addition Float)}
  {properties : List (RelationshipProperty Float)} {f : Link Float → List (StagedEntry Float)}

theorem Carries.readsFinite (carries : Carries f) (valid : config.Valid layout)
    (lists : Listed nodeCount config layout
      (Schedule.arrivals config.bufferSize config.concurrency
        ((additions.filterMap (link? idMap config layout)).map f)) adjacency properties) :
    ReadsFinite idMap additions properties := by
  intro property member selective safe node values read
  have full := linksFull idMap valid additions
  refine lists.readKeeps valid ?_ member ?_ ?_ read
  · intro entry arrived
    obtain ⟨link, taken, same, -⟩ := carries.arrival valid arrived
    exact same ▸ full link taken
  · intro x y finite finite'
    rcases Aggregation.mergeSelects selective x y with same | same
    · rw [same]
      exact finite
    · rw [same]
      exact finite'
  · intro index default entry arrived value found
    obtain ⟨link, taken, same, -⟩ := carries.arrival valid arrived
    rw [same] at found
    rcases linkValues taken with ⟨defaults, filled⟩ | finite
    · rw [defaults, default] at found
      obtain rfl := Option.some.inj found
      exact safe.resolve_right filled
    · exact finite value (List.mem_of_getElem? found)

/-- All values are finite exactly if the defaults are, or none of them was filled in. -/
theorem finiteUnlessFilled {idMap : IdMap} (dense : idMap.Dense) {b : Builder Float}
    (made : make idMap config = .ok b) (additions : List (Addition Float)) (t : Termination)
    (j : Journal) :
    ((∀ value ∈ (b.performAll additions).stagedValues, value.isFinite = true) ↔
        (∀ value ∈ config.defaults, value.isFinite = true) ∨ Unfilled idMap additions) ∧
      ∃ layout, config.layout = .ok layout ∧
        Delivers t (ShortOfMemory idMap.nodeCount config layout
            (additions.filterMap (link? idMap config layout)))
          (fun r => ReadsFinite idMap additions r.properties ∧
            (config.indexInverse = true → ReadsFinite idMap additions r.inverseProperties))
          ((b.performAll additions).build t j).1 := by
  obtain ⟨layout, found, valid, opened⟩ := makeRuns made
  have runs : Runs idMap config layout (additions.filterMap (link? idMap config layout))
      (b.performAll additions) := opened.performAll valid additions
  refine ⟨?_, layout, found, runs.delivers t j fun r built => ?_⟩
  · have staged : ∀ value, value ∈ (b.performAll additions).stagedValues ↔
        value ∈ Link.valuesOf (additions.filterMap (link? idMap config layout)) :=
      fun value => runs.stagedValues valid (linksInside dense config layout additions)
    simp only [staged]
    exact takenFinite idMap config layout additions
  · refine ⟨(entriesCarry config.orientation).readsFinite valid built.lists, fun inverted => ?_⟩
    obtain ⟨topology, -, lists⟩ := built.inverse inverted
    exact (inverseCarry config.orientation).readsFinite valid lists

def unboundedConfig : BuilderConfig Float :=
  ⟨.natural, .none, [⟨"weight", none, 0.0 / 0.0⟩], true, false, 2, 3⟩

theorem sampleFilled : ∃ b, (IdMap.direct 3).Dense ∧ make (.direct 3) unboundedConfig = .ok b ∧
    ¬ ∀ value ∈ (b.performAll [.valued 0 1 [2.5], .plain 1 2]).stagedValues,
      value.isFinite = true := by
  have dense : (IdMap.direct 3).Dense := IdMap.directDense (by decide)
  obtain ⟨b, made⟩ : ∃ b, make (.direct 3) unboundedConfig = .ok b := ⟨_, rfl⟩
  obtain ⟨staged, -⟩ :=
    finiteUnlessFilled dense made [.valued 0 1 [2.5], .plain 1 2] .always .empty
  refine ⟨b, dense, made, fun finite => ?_⟩
  rcases staged.mp finite with defaults | unfilled
  · exact absurd (defaults (0.0 / 0.0) (by simp [unboundedConfig, BuilderConfig.defaults])) (by decide)
  · exact absurd (unfilled 1 2 (by simp)) (by decide)

end Doubles
end Builder
end CommunityGraph
