import CommunityGraph.Proofs.Adjacency.Compressor

/-! The outcomes of one compression: a fault of the arguments changes nothing; otherwise the arranged
rows are recorded, unless they are more than memory can hold. -/
namespace CommunityGraph
variable {α : Type}

def AdjacencyWriter.On (writer : AdjacencyWriter) (store : AdjacencyStore α) : Prop :=
  writer.targets.On store.targets.pages ∧ writer.values.On store.values.pages

theorem AdjacencyWriter.emptyOn (store : AdjacencyStore α) : AdjacencyWriter.empty.On store :=
  ⟨Allocator.emptyOn _, Allocator.emptyOn _⟩

namespace AdjacencyStore

theorem unevenColumnFree {expected : Nat} {keys : List String} {columns : List (List α)}
    (same : columns.length = keys.length) :
    unevenColumn? expected keys columns = none ↔ ∀ column ∈ columns, column.length = expected := by
  induction keys generalizing columns with
  | nil => simp [List.eq_nil_of_length_eq_zero same, unevenColumn?]
  | cons key keys ih =>
    obtain ⟨column, rest, rfl⟩ := List.exists_cons_of_length_eq_add_one same
    have fewer : rest.length = keys.length := by simpa using same
    have tail := ih fewer
    by_cases even : column.length = expected <;> simp [unevenColumn?, even, tail]

theorem unevenColumnKind {expected : Nat} {keys : List String} {columns : List (List α)}
    {e : EngineError} (found : unevenColumn? expected keys columns = some e) :
    ∃ key actual, e = .dimensionMismatch key expected actual := by
  induction keys generalizing columns with
  | nil => simp [unevenColumn?] at found
  | cons key keys ih =>
    cases columns with
    | nil => simp [unevenColumn?] at found
    | cons column columns =>
      rw [unevenColumn?] at found
      split at found
      · exact ⟨key, column.length, (Option.some.inj found).symm⟩
      · exact ih found

def Accepts (nodeCount : Nat) (layout : PropertyLayout) (node : Nat) (targets : List UInt64)
    (columns : List (List α)) : Prop :=
  node < nodeCount ∧ columns.length = layout.propertyCount ∧
    ∀ column ∈ columns, column.length = targets.length

theorem faultFree {nodeCount node : Nat} {layout : PropertyLayout} {targets : List UInt64}
    {columns : List (List α)} :
    fault? nodeCount layout node targets columns = none ↔
      Accepts nodeCount layout node targets columns := by
  unfold fault? Accepts
  split
  · rename_i outside
    simp [Nat.not_lt.mpr outside]
  · split
    · rename_i uneven
      simp [uneven]
    · rename_i inside even
      have same : columns.length = layout.keys.length := Decidable.not_not.mp even
      simp [unevenColumnFree same, Nat.lt_of_not_le inside, PropertyLayout.propertyCount, same]

theorem faultKind {nodeCount node : Nat} {layout : PropertyLayout} {targets : List UInt64}
    {columns : List (List α)} {e : EngineError}
    (found : fault? nodeCount layout node targets columns = some e) :
    (nodeCount ≤ node ∧ e = .nodeOutOfRange node nodeCount) ∨
      (node < nodeCount ∧ ∃ key expected actual, e = .dimensionMismatch key expected actual) := by
  unfold fault? at found
  split at found
  · rename_i outside
    exact .inl ⟨outside, (Option.some.inj found).symm⟩
  · rename_i inside
    refine .inr ⟨Nat.lt_of_not_le inside, ?_⟩
    split at found
    · exact ⟨_, _, _, (Option.some.inj found).symm⟩
    · obtain ⟨key, actual, same⟩ := unevenColumnKind found
      exact ⟨key, _, actual, same⟩

structure Changed (node : Nat) (before after : AdjacencyStore α) (writer : AdjacencyWriter) :
    Prop where
  sound : after.Sound
  frame : Frame node before after
  on : writer.On after

theorem Frame.on {node : Nat} {before after : AdjacencyStore α} (frame : Frame node before after)
    {writer : AdjacencyWriter} (on : writer.On before) : writer.On after :=
  ⟨on.1.later frame.targets, on.2.later frame.values⟩

def Storable (count : Nat) (rows : List (Row α)) : Prop :=
  (packedTargets rows).length ≤ Memory.maxBlock ∧ rows.length * count * 8 ≤ Memory.maxBlock

theorem storableShort {count limit : Nat} {rows : List (Row α)} (short : rows.length ≤ limit)
    (packed : 9 * limit ≤ Memory.maxBlock) (valued : limit * count * 8 ≤ Memory.maxBlock) :
    Storable count rows := by
  have bytes := Packing.packLength (Row.differences 0 (rows.map Row.target))
  rw [Row.differencesLength, List.length_map] at bytes
  constructor
  · unfold packedTargets
    omega
  · have fewer : rows.length * count ≤ limit * count := Nat.mul_le_mul_right _ short
    omega

theorem Sound.affordableTargets {store : AdjacencyStore α} (sound : store.Sound) (length : Nat) :
    store.targets.Affordable length ↔ length ≤ Memory.maxBlock := by
  have page : targetPageSize ≤ Memory.maxBlock := by decide
  rw [Arena.Affordable, sound.targetPages.1, sound.targetPages.2]
  omega

theorem Sound.affordableValues {store : AdjacencyStore α} (sound : store.Sound) (length : Nat) :
    store.values.Affordable length ↔ length * 8 ≤ Memory.maxBlock := by
  have page : valuePageSize * 8 ≤ Memory.maxBlock := by decide
  rw [Arena.Affordable, sound.valuePages.1, sound.valuePages.2]
  omega

theorem columnsTotal {count : Nat} {rows : List (Row α)} (wide : Row.Wide count rows) :
    (Row.columns count rows).flatten.length = rows.length * count := by
  have even : (Row.columns count rows).map List.length = List.replicate count rows.length := by
    refine List.eq_replicate_iff.mpr ⟨by simp, fun length member => ?_⟩
    obtain ⟨column, inside, rfl⟩ := List.mem_map.mp member
    exact Row.columnsEven wide column inside
  rw [List.length_flatten, even, List.sum_replicate_nat, Nat.mul_comm]

def Balanced (store : AdjacencyStore α) : Prop :=
  store.relationshipCount =
    ((List.range store.nodeCount).map store.build.list.degree).sum

theorem makeBalanced (nodeCount : Nat) (layout : PropertyLayout) :
    (make nodeCount layout : AdjacencyStore α).Balanced := by
  have none : (make nodeCount layout : AdjacencyStore α).build.list.degree = fun _ => 0 := by
    funext node
    by_cases inside : node < nodeCount <;>
      simp [make, build, AdjacencyList.degree, Array.getD, inside]
  rw [Balanced, none]
  simp [make]

theorem sumChanged {f g : Nat → Nat} {index n : Nat} (inside : index < n)
    (others : ∀ other, other ≠ index → g other = f other) :
    ((List.range n).map g).sum + f index = ((List.range n).map f).sum + g index := by
  induction n with
  | zero => simp at inside
  | succ n ih =>
    simp only [List.range_succ, List.map_append, List.sum_append, List.map_cons, List.map_nil,
      List.sum_cons, List.sum_nil]
    by_cases last : index = n
    · have before : (List.range n).map g = (List.range n).map f :=
        List.map_congr_left fun other member =>
          others other (by have := List.mem_range.mp member; omega)
      rw [before, ← last]
      omega
    · have rest := ih (by omega)
      rw [others n (Ne.symm last)]
      omega

theorem Stored.readCount {store : AdjacencyStore α} {node : Nat} {rows : List (Row α)}
    (stored : store.Stored node rows) : store.build.list.degree node = rows.length := by
  have found := stored.degree
  simp only [AdjacencyList.degree, build, Array.getD_eq_getD_getElem?, found, Option.getD_some]

theorem Changed.balanced {store after : AdjacencyStore α} {next : AdjacencyWriter} {node : Nat}
    {rows : List (Row α)} (changed : Changed node store after next) (inside : node < store.nodeCount)
    (before : store.Balanced) (empty : store.Stored node []) (stored : after.Stored node rows)
    (total : after.relationshipCount = store.relationshipCount + rows.length) :
    after.Balanced := by
  have others : ∀ other, other ≠ node →
      after.build.list.degree other = store.build.list.degree other := by
    intro other apart
    simp only [AdjacencyList.degree, build, Array.getD_eq_getD_getElem?,
      changed.frame.degrees other apart]
  have raised := sumChanged inside others
  have none : store.build.list.degree node = 0 := empty.readCount
  rw [none, stored.readCount] at raised
  rw [Balanced, changed.frame.nodeCount, total, before]
  exact raised.symm

theorem setOther {β : Type} {entries : Array β} {node other : Nat} (apart : other ≠ node)
    (entry : β) : (entries.setIfInBounds node entry)[other]? = entries[other]? :=
  Array.getElem?_setIfInBounds_ne (Ne.symm apart)

theorem setHere {β : Type} {entries : Array β} {node : Nat} (inside : node < entries.size)
    (entry : β) : (entries.setIfInBounds node entry)[node]? = some entry := by
  simp [inside]

def recordTargets (store : AdjacencyStore α) (node : Nat) (rows : List (Row α))
    (fresh : Arena UInt8) (address : Address) : AdjacencyStore α :=
  { store with
    targets := fresh.write address (packedTargets rows)
    degrees := store.degrees.setIfInBounds node rows.length
    addresses := store.addresses.setIfInBounds node address
    relationshipCount := store.relationshipCount + rows.length }

def recordValues (store : AdjacencyStore α) (node : Nat) (rows : List (Row α))
    (fresh : Arena α) (address : Address) : AdjacencyStore α :=
  { store with
    values := fresh.write address (Row.columns store.layout.propertyCount rows).flatten
    valueAddresses := store.valueAddresses.setIfInBounds node address }

section Recording
variable {store : AdjacencyStore α} {writer : AdjacencyWriter} {node : Nat} {rows : List (Row α)}
  {address valueAddress : Address} {next valueNext : Allocator} {fresh : Arena UInt8}
  {valueFresh : Arena α}

theorem recordTargetsChanged (node : Nat) (sound : store.Sound)
    (size : fresh.pageSize = store.targets.pageSize)
    (width : fresh.elementBytes = store.targets.elementBytes)
    (placed : Arena.Placed store.targets.pages (fresh.write address (packedTargets rows)).pages
      address (packedTargets rows) next) (valuesOn : writer.values.On store.values.pages) :
    Changed node store (store.recordTargets node rows fresh address) ⟨next, writer.values⟩ where
  sound := ⟨by simp [recordTargets, sound.degrees], by simp [recordTargets, sound.addresses],
    sound.valueAddresses, ⟨size.trans sound.targetPages.1, width.trans sound.targetPages.2⟩,
    sound.valuePages⟩
  frame := ⟨rfl, rfl, placed.grows, Arena.growsRefl _, fun _ apart => setOther apart _,
    fun _ apart => setOther apart _, fun _ _ => rfl⟩
  on := ⟨placed.on, valuesOn⟩

theorem recordValuesChanged (changed : Changed node store (store.recordTargets node rows fresh
      address) ⟨next, writer.values⟩)
    (size : valueFresh.pageSize = store.values.pageSize)
    (width : valueFresh.elementBytes = store.values.elementBytes)
    (placed : Arena.Placed store.values.pages (valueFresh.write valueAddress
      (Row.columns store.layout.propertyCount rows).flatten).pages valueAddress
      (Row.columns store.layout.propertyCount rows).flatten valueNext) :
    Changed node store ((store.recordTargets node rows fresh address).recordValues node rows
      valueFresh valueAddress) ⟨next, valueNext⟩ where
  sound := ⟨changed.sound.degrees, changed.sound.addresses,
    by simpa [recordValues, recordTargets] using changed.sound.valueAddresses,
    changed.sound.targetPages, ⟨size.trans changed.sound.valuePages.1,
      width.trans changed.sound.valuePages.2⟩⟩
  frame := ⟨rfl, rfl, changed.frame.targets, placed.grows, changed.frame.degrees,
    changed.frame.addresses, fun _ apart => setOther apart _⟩
  on := ⟨changed.on.1, placed.on⟩

end Recording

variable [Weight α]

theorem putCases {store : AdjacencyStore α} {writer : AdjacencyWriter} {node : Nat}
    {rows : List (Row α)} (sound : store.Sound) (on : writer.On store)
    (inside : node < store.nodeCount) (wide : Row.Wide store.layout.propertyCount rows) :
    ∃ outcome after next,
      put store writer node (rows.map Row.target)
        (Row.columns store.layout.propertyCount rows) = (outcome, after, next) ∧
      Changed node store after next ∧
      (outcome = .ok () ∧ after.Stored node rows ∧
          after.relationshipCount = store.relationshipCount + rows.length ∨
        ∃ bytes, outcome = .error (.allocationFailed bytes) ∧
          ¬ Storable store.layout.propertyCount rows) := by
  obtain ⟨targetsOn, valuesOn⟩ := on
  have degreeInside : node < store.degrees.size := by rw [sound.degrees]; exact inside
  have addressInside : node < store.addresses.size := by rw [sound.addresses]; exact inside
  have valueInside : node < store.valueAddresses.size := by
    rw [sound.valueAddresses]; exact inside
  rcases Arena.allocateCases store.targets targetsOn (packedTargets rows).length 0 with
    ⟨bytes, failed, costly⟩ | ⟨address, next, fresh, given, size, width, place⟩
  · rw [sound.affordableTargets] at costly
    simp only [packedTargets] at failed
    refine ⟨.error (.allocationFailed bytes), store, ⟨.empty, writer.values⟩, ?_, ?_, ?_⟩
    · simp only [put, failed]
    · exact ⟨sound, .refl _ _, Allocator.emptyOn _, valuesOn⟩
    · exact .inr ⟨bytes, rfl, fun storable => costly storable.1⟩
  have placed := place (packedTargets rows) rfl
  have changed := recordTargetsChanged node sound size width placed valuesOn
  simp only [packedTargets] at given
  -- the targets are recorded from here on, whatever comes of the values
  cases properties : store.layout.propertyCount with
  | zero =>
    refine ⟨.ok (), store.recordTargets node rows fresh address, ⟨next, writer.values⟩, ?_, changed,
      .inl ⟨rfl, ?_, rfl⟩⟩
    · simp [put, given, Row.columns, recordTargets, packedTargets]
    · exact ⟨wide, setHere degreeInside _,
        fun _ => ⟨address, setHere addressInside _, placed.holds⟩,
        fun _ some => absurd some (by simp [recordTargets, properties])⟩
  | succ count =>
    rw [← properties]
    have filled : (Row.columns store.layout.propertyCount rows).isEmpty = false := by
      rw [List.isEmpty_eq_false_iff, ← List.length_pos_iff, Row.columnsLength]
      omega
    have demand : (rows.map Row.target).length *
        (Row.columns store.layout.propertyCount rows).length =
        rows.length * store.layout.propertyCount := by simp
    rcases Arena.allocateCases store.values valuesOn
        (rows.length * store.layout.propertyCount) Weight.zero with
      ⟨bytes, failed, costly⟩ | ⟨valueAddress, valueNext, valueFresh, valueGiven, valueSize,
        valueWidth, valuePlace⟩
    · rw [sound.affordableValues] at costly
      refine ⟨.error (.allocationFailed bytes), store.recordTargets node rows fresh address,
        ⟨next, .empty⟩, ?_, ?_, ?_⟩
      · simp only [put, given, filled, demand, failed]
        simp [recordTargets, packedTargets]
      · exact ⟨changed.sound, changed.frame, changed.on.1, Allocator.emptyOn _⟩
      · exact .inr ⟨bytes, rfl, fun storable => costly storable.2⟩
    · have valuePlaced := valuePlace (Row.columns store.layout.propertyCount rows).flatten
        (columnsTotal wide)
      refine ⟨.ok (), (store.recordTargets node rows fresh address).recordValues node rows
        valueFresh valueAddress, ⟨next, valueNext⟩, ?_,
        recordValuesChanged changed valueSize valueWidth valuePlaced, .inl ⟨rfl, ?_, rfl⟩⟩
      · simp only [put, given, filled, demand, valueGiven]
        simp [recordTargets, recordValues, packedTargets]
      · exact ⟨wide, setHere degreeInside _,
          fun _ => ⟨address, setHere addressInside _, placed.holds⟩,
          fun _ _ => ⟨valueAddress, setHere valueInside _, valuePlaced.holds⟩⟩

def mappedTargets (mapper : Option (UInt64 → UInt64)) (targets : List UInt64) : List UInt64 :=
  match mapper with
  | none => targets
  | some f => targets.map f

def arrangedRows (layout : PropertyLayout) (mapper : Option (UInt64 → UInt64))
    (targets : List UInt64) (columns : List (List α)) : List (Row α) :=
  Row.arrange layout (Row.ofColumns (mappedTargets mapper targets) columns)

theorem mappedLength (mapper : Option (UInt64 → UInt64)) (targets : List UInt64) :
    (mappedTargets mapper targets).length = targets.length := by
  cases mapper <;> simp [mappedTargets]

theorem Accepts.wide {nodeCount node : Nat} {layout : PropertyLayout} {targets : List UInt64}
    {columns : List (List α)} (accepts : Accepts nodeCount layout node targets columns)
    (mapper : Option (UInt64 → UInt64)) :
    Row.Wide layout.propertyCount (arrangedRows layout mapper targets columns) := by
  obtain ⟨-, same, even⟩ := accepts
  rw [← same]
  refine Row.arrangeWide layout (Row.columnsOfColumns fun column member => ?_).2.2
  rw [mappedLength]
  exact even column member

structure Compressed (store after : AdjacencyStore α) (next : AdjacencyWriter) (node : Nat)
    (rows : List (Row α)) (outcome : Except EngineError (Arranged α)) : Prop where
  changed : Changed node store after next
  result : (outcome = .ok ⟨rows.map Row.target, Row.columns store.layout.propertyCount rows⟩ ∧
      after.Stored node rows ∧
      after.relationshipCount = store.relationshipCount + rows.length) ∨
    ∃ bytes, outcome = .error (.allocationFailed bytes) ∧
      ¬ Storable store.layout.propertyCount rows

theorem compressEmpty {store : AdjacencyStore α} {writer : AdjacencyWriter} {node : Nat}
    {columns : List (List α)} (mapper : Option (UInt64 → UInt64)) (sound : store.Sound)
    (on : writer.On store) (accepts : Accepts store.nodeCount store.layout node [] columns) :
    ∃ outcome after next,
      store.compress writer node [] columns mapper = (outcome, after, next) ∧
      Compressed store after next node (arrangedRows store.layout mapper [] columns) outcome := by
  have nothing : arrangedRows store.layout mapper [] columns = [] := by
    cases mapper <;> simp [arrangedRows, mappedTargets, Row.ofColumns, Row.arrange, Row.sort,
      Row.foldRuns]
  have empty : columns = Row.columns store.layout.propertyCount [] := by
    rw [Row.columnsNil, ← accepts.2.1]
    exact List.eq_replicate_of_mem fun column member =>
      List.eq_nil_of_length_eq_zero (accepts.2.2 column member)
  have inside : node < store.degrees.size := by rw [sound.degrees]; exact accepts.1
  refine ⟨.ok ⟨[], columns⟩,
    { store with degrees := store.degrees.setIfInBounds node 0 }, writer, ?_, ?_, ?_⟩
  · simp [compress, faultFree.mpr accepts]
  · refine ⟨⟨by simp [sound.degrees], sound.addresses, sound.valueAddresses, sound.targetPages,
      sound.valuePages⟩, ?_, on⟩
    exact ⟨rfl, rfl, Arena.growsRefl _, Arena.growsRefl _, fun _ apart => setOther apart _,
      fun _ _ => rfl, fun _ _ => rfl⟩
  · rw [nothing]
    exact .inl ⟨by rw [← empty]; rfl, storedEmpty (setHere inside _), rfl⟩

theorem compressPuts {store after : AdjacencyStore α} {writer next : AdjacencyWriter} {node : Nat}
    {targets : List UInt64} {columns : List (List α)} {mapper : Option (UInt64 → UInt64)}
    {rows : List (Row α)} {outcome : Except EngineError Unit}
    (accepts : Accepts store.nodeCount store.layout node targets columns)
    (nonempty : targets ≠ []) (here : arrangedRows store.layout mapper targets columns = rows)
    (done : put store writer node (rows.map Row.target)
      (Row.columns store.layout.propertyCount rows) = (outcome, after, next)) :
    store.compress writer node targets columns mapper =
      (outcome.map fun _ => ⟨rows.map Row.target, Row.columns store.layout.propertyCount rows⟩,
        after, next) := by
  have some : targets.isEmpty = false := by simp [nonempty]
  unfold arrangedRows mappedTargets at here
  unfold compress
  cases mapper <;> cases outcome <;>
    simp only [faultFree.mpr accepts, some, Bool.false_eq_true, if_false, here, accepts.2.1, done,
      Except.map]

theorem compressAccepted {store : AdjacencyStore α} {writer : AdjacencyWriter} {node : Nat}
    {targets : List UInt64} {columns : List (List α)} (mapper : Option (UInt64 → UInt64))
    (sound : store.Sound) (on : writer.On store)
    (accepts : Accepts store.nodeCount store.layout node targets columns) :
    ∃ outcome after next,
      store.compress writer node targets columns mapper = (outcome, after, next) ∧
      Compressed store after next node (arrangedRows store.layout mapper targets columns)
        outcome := by
  by_cases empty : targets = []
  · subst empty
    exact compressEmpty mapper sound on accepts
  · obtain ⟨outcome, after, next, done, changed, result⟩ :=
      putCases sound on accepts.1 (accepts.wide mapper)
    refine ⟨_, after, next, compressPuts accepts empty rfl done, changed, ?_⟩
    rcases result with ⟨rfl, stored, total⟩ | ⟨bytes, rfl, costly⟩
    · exact .inl ⟨rfl, stored, total⟩
    · exact .inr ⟨bytes, rfl, costly⟩

end AdjacencyStore
end CommunityGraph
