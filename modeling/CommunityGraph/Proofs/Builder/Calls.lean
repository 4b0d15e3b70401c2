import CommunityGraph.Proofs.Aggregation
import CommunityGraph.Proofs.Builder.Refinement
import CommunityGraph.Proofs.Storage.Machine

/-! Which calls a builder takes, and what it has staged after any of them. -/
namespace CommunityGraph
variable {α : Type}

structure BuilderConfig.Valid (config : BuilderConfig α) (layout : PropertyLayout) : Prop where
  concurrency : 0 < config.concurrency
  bufferSize : 0 < config.bufferSize
  oneWay : config.indexInverse = true → config.orientation ≠ .undirected
  made : PropertyLayout.make config.keys config.aggregations config.aggregation = .ok layout

theorem bindOk {ε β γ : Type} {x : Except ε β} {f : β → Except ε γ} {result : γ}
    (ok : x >>= f = .ok result) : ∃ value, x = .ok value ∧ f value = .ok result := by
  cases x with
  | error e => cases ok
  | ok value => exact ⟨value, rfl, ok⟩

theorem BuilderConfig.layoutValid {config : BuilderConfig α} {layout : PropertyLayout}
    (ok : config.layout = .ok layout) : config.Valid layout := by
  unfold BuilderConfig.layout at ok
  obtain ⟨_, workers, ok⟩ := bindOk ok
  obtain ⟨_, size, ok⟩ := bindOk ok
  dsimp only at ok
  by_cases both : config.indexInverse = true ∧ config.orientation = .undirected
  · rw [if_pos both] at ok
    obtain ⟨_, refused, _⟩ := bindOk ok
    cases refused
  · rw [if_neg both] at ok
    split at ok
    · cases ok
    · exact ⟨requirePositiveOk workers, requirePositiveOk size,
        fun indexed undirected => both ⟨indexed, undirected⟩, ok⟩

theorem BuilderConfig.Valid.properties {config : BuilderConfig α} {layout : PropertyLayout}
    (valid : config.Valid layout) : layout.propertyCount = config.properties.length := by
  rw [PropertyLayout.makeLayout valid.made]
  simp [PropertyLayout.propertyCount, BuilderConfig.keys]

def EngineError.refuses : EngineError → Bool
  | .dimensionMismatch _ _ _ => true
  | .invalidPropertyValue _ _ => true
  | .unmappedNodes _ => true
  | .nodeOutOfRange _ _ => true
  | .builderClosed => true
  | .alreadyBuilt => true
  | _ => false

namespace Builder
open StagedEntry AdjacencyBuffer BuilderSlot

def forwardState (config : BuilderConfig α) (links : List (Link α)) :
    Schedule.State (StagedEntry α) :=
  Schedule.turns config.bufferSize (links.map (Link.entries config.orientation))
    (Schedule.start config.concurrency)

def inverseState (config : BuilderConfig α) (links : List (Link α)) :
    Schedule.State (StagedEntry α) :=
  Schedule.turns config.bufferSize (links.map (Link.inverseEntries config.orientation))
    (Schedule.start config.concurrency)

structure Runs (idMap : IdMap) (config : BuilderConfig α) (layout : PropertyLayout)
    (links : List (Link α)) (b : Builder α) : Prop where
  ids : b.idMap = idMap
  settings : b.config = config
  properties : b.layout = layout
  opened : b.built = false
  staged : Staged idMap.nodeCount layout.propertyCount config.bufferSize config.indexInverse
    (forwardState config links) (inverseState config links) b.slots b.staged

variable {idMap : IdMap} {config : BuilderConfig α} {layout : PropertyLayout}
  {links : List (Link α)} {b : Builder α} {m : Machine}

def blocks (config : BuilderConfig α) (nodeCount propertyCount : Nat) : List Nat :=
  [config.concurrency * BuilderSlot.bytes] ++ slotBlocks config propertyCount ++
    pageBlocks config nodeCount propertyCount

theorem makeReserves (idMap : IdMap) (config : BuilderConfig α) (m : Machine) :
    make idMap config m = config.layout >>= fun layout =>
      m.reserve 0 (blocks config idMap.nodeCount layout.propertyCount) >>= fun _ =>
        .ok (fresh idMap config layout) := by
  simp only [make, blocks, Machine.reserveAppend, bind_assoc]

theorem makeInvalid {e : EngineError} (refused : config.layout = .error e) :
    make idMap config m = .error e := by
  rw [makeReserves, refused]
  rfl

theorem makeFound (found : config.layout = .ok layout) : make idMap config m =
    (m.reserve 0 (blocks config idMap.nodeCount layout.propertyCount)).map
      fun _ => fresh idMap config layout := by
  rw [makeReserves, found]
  change (m.reserve 0 (blocks config idMap.nodeCount layout.propertyCount)).bind _ = _
  cases m.reserve 0 (blocks config idMap.nodeCount layout.propertyCount) <;> rfl

theorem makeOk (made : make idMap config m = .ok b) :
    ∃ layout, config.layout = .ok layout ∧
      m.Lends 0 (blocks config idMap.nodeCount layout.propertyCount) ∧
      b = fresh idMap config layout := by
  rw [makeReserves] at made
  obtain ⟨layout, found, made⟩ := bindOk made
  obtain ⟨left, reserved, made⟩ := bindOk made
  cases made
  exact ⟨layout, found, Machine.reserveOk reserved, rfl⟩

theorem makeError {e : EngineError} (found : config.layout = .ok layout)
    (refused : make idMap config m = .error e) :
    m.Refuses 0 (blocks config idMap.nodeCount layout.propertyCount) e := by
  rw [makeFound found] at refused
  cases reserved : m.reserve 0 (blocks config idMap.nodeCount layout.propertyCount) with
  | error other =>
    rw [reserved] at refused
    cases refused
    exact Machine.reserveError reserved
  | ok left =>
    rw [reserved] at refused
    cases refused

theorem makeLent (found : config.layout = .ok layout)
    (lends : m.Lends 0 (blocks config idMap.nodeCount layout.propertyCount)) :
    make idMap config m = .ok (fresh idMap config layout) := by
  rw [makeFound found, lends.reserve]
  rfl

theorem makeRuns (made : make idMap config m = .ok b) :
    ∃ layout, config.layout = .ok layout ∧ config.Valid layout ∧
      Runs idMap config layout [] b := by
  obtain ⟨layout, found, -, rfl⟩ := makeOk made
  have valid := BuilderConfig.layoutValid found
  have started := startStaged (α := α) idMap.nodeCount layout.propertyCount config.bufferSize
    config.concurrency config.indexInverse
  have size : max config.bufferSize 1 = config.bufferSize :=
    Nat.max_eq_left valid.bufferSize
  refine ⟨layout, found, valid, rfl, rfl, rfl, rfl, ?_⟩
  simpa [fresh, BuilderSlot.make, LocalBuffer.makeHolding, holdingBoth, size, forwardState,
    inverseState, Schedule.turns] using started

theorem makeDropped (made : make idMap config m = .ok b) : b.dropped = 0 := by
  obtain ⟨layout, -, -, rfl⟩ := makeOk made
  rfl

theorem forwardWaiting (valid : config.Valid layout) (links : List (Link α)) :
    0 < (forwardState config links).waiting.length := by
  rw [forwardState, Schedule.turnsWaiting]
  simpa [Schedule.start] using valid.concurrency

theorem Runs.insert (runs : Runs idMap config layout links b) (valid : config.Valid layout)
    (link : Link α) (width : link.values.length = layout.propertyCount) :
    ∃ after, b.insert link.source link.target link.values = (.ok (), after) ∧
      Runs idMap config layout (links ++ [link]) after ∧ after.dropped = b.dropped := by
  obtain ⟨index, pool, slot, slot', staged, leased, got, inserted, turned⟩ :=
    runs.staged.turn (forwardWaiting valid links) config.orientation width
  obtain ⟨ids, settings, properties, opened, -⟩ := runs
  obtain ⟨idMap', config', layout', staged', slots, built, dropped⟩ := b
  dsimp only at ids settings properties opened leased inserted
  subst ids settings properties opened
  refine ⟨⟨idMap', config', layout', staged, (pool.update index slot').release index, false,
    dropped⟩, ?_, ⟨rfl, rfl, rfl, rfl, ?_⟩, rfl⟩
  · simp [Builder.insert, leased, got, inserted]
  · simpa [forwardState, inverseState, Schedule.turnsSnoc] using turned

def mappedLink? (idMap : IdMap) (source target : Int) (values : List α) : Option (Link α) :=
  match idMap.mapped? source, idMap.mapped? target with
  | some s, some t => some ⟨s, t, values⟩
  | _, _ => none

theorem mappedNone {source target : Int} {values : List α} :
    mappedLink? idMap source target values = none ↔
      idMap.mapped? source = none ∨ idMap.mapped? target = none := by
  unfold mappedLink?
  cases idMap.mapped? source <;> cases idMap.mapped? target <;> simp

theorem mappedFull {idMap : IdMap} {source target : Int} {values : List α} {link : Link α}
    (made : mappedLink? idMap source target values = some link) : link.values = values := by
  unfold mappedLink? at made
  split at made <;> cases made
  rfl

def recounted (b : Builder α) (dropped : Nat) : Builder α := { b with dropped := dropped }

structure Known (idMap : IdMap) (config : BuilderConfig α) (layout : PropertyLayout)
    (b : Builder α) : Prop where
  ids : b.idMap = idMap
  settings : b.config = config
  properties : b.layout = layout
  nodes : b.nodeCount = idMap.nodeCount

theorem Runs.known (runs : Runs idMap config layout links b) : Known idMap config layout b :=
  ⟨runs.ids, runs.settings, runs.properties, runs.staged.lists.nodes⟩

inductive Answers (b : Builder α) : Option (Link α) → Bool → Except EngineError Unit × Builder α →
    Prop where
  | taken (link : Link α) :
      Answers b (some link) false (b.insert link.source link.target link.values)
  | dropped : Answers b none true (.ok (), b.recounted (b.dropped + 1))
  | refused {e : EngineError} (refuses : e.refuses = true) : Answers b none false (.error e, b)

def dangling (idMap : IdMap) (config : BuilderConfig α) (source target : Int) : Bool :=
  config.skipDangling && decide (idMap.mapped? source = none ∨ idMap.mapped? target = none)

theorem addMappedLink (b : Builder α) (source target : Int) (values : List α) :
    b.addMapped source target values =
      match mappedLink? b.idMap source target values with
      | some link => b.insert link.source link.target link.values
      | none =>
          if b.config.skipDangling then (.ok (), b.recounted (b.dropped + 1))
          else (.error (.unmappedNodes (missing b.idMap [source, target])), b) := by
  unfold addMapped mappedLink?
  cases b.idMap.mapped? source with
  | none => rfl
  | some s => cases b.idMap.mapped? target <;> rfl

theorem Known.addMapped (known : Known idMap config layout b) (source target : Int)
    (values : List α) :
    Answers b (mappedLink? idMap source target values) (dangling idMap config source target)
      (b.addMapped source target values) := by
  obtain rfl := known.ids
  obtain rfl := known.settings
  rw [addMappedLink, dangling]
  have missed : mappedLink? b.idMap source target values = none ↔
      b.idMap.mapped? source = none ∨ b.idMap.mapped? target = none := mappedNone
  cases linked : mappedLink? b.idMap source target values with
  | some link =>
    rw [decide_eq_false (missed.not.mp (by simp [linked])), Bool.and_false]
    exact .taken link
  | none =>
    rw [decide_eq_true (missed.mp linked), Bool.and_true]
    cases b.config.skipDangling with
    | true => exact .dropped
    | false => exact .refused rfl

structure Ends (idMap : IdMap) (config : BuilderConfig α) (layout : PropertyLayout)
    (links : List (Link α)) (b : Builder α) (link? : Option (Link α))
    (answer : Except EngineError Unit × Builder α) : Prop where
  runs : Runs idMap config layout (links ++ link?.toList) answer.2
  taken : answer.1 = .ok () ∧ answer.2.dropped = b.dropped ↔ link?.isSome

theorem Runs.takes (runs : Runs idMap config layout links b) (valid : config.Valid layout)
    (link : Link α) (width : link.values.length = layout.propertyCount) :
    Ends idMap config layout links b (some link)
      (b.insert link.source link.target link.values) := by
  obtain ⟨after, same, further, dropped⟩ := runs.insert valid link width
  rw [same]
  exact ⟨further, by simp [dropped]⟩

theorem Runs.refuses (runs : Runs idMap config layout links b) (e : EngineError) :
    Ends idMap config layout links b none (.error e, b) :=
  ⟨by simpa using runs, by simp⟩

theorem Runs.skips (runs : Runs idMap config layout links b) :
    Ends idMap config layout links b none (.ok (), { b with dropped := b.dropped + 1 }) :=
  ⟨by simpa using ⟨runs.ids, runs.settings, runs.properties, runs.opened, runs.staged⟩, by simp⟩

theorem Answers.ends {taken : Option (Link α)} {dropped : Bool}
    {answer : Except EngineError Unit × Builder α} (answers : Answers b taken dropped answer)
    (runs : Runs idMap config layout links b) (valid : config.Valid layout)
    (full : ∀ link, taken = some link → link.values.length = layout.propertyCount) :
    Ends idMap config layout links b taken answer := by
  cases answers with
  | taken link => exact runs.takes valid link (full link rfl)
  | dropped => exact runs.skips
  | refused refuses => exact runs.refuses _

section Calls
variable [Weight α]

def Usable (layout : PropertyLayout) (values : List α) : Prop :=
  values.length = layout.propertyCount ∧ ∀ value ∈ values, Weight.isFinite value = true

instance (layout : PropertyLayout) (values : List α) : Decidable (Usable layout values) :=
  inferInstanceAs (Decidable (_ ∧ _))

theorem unusableNone {keys : List String} {values : List α} (same : values.length = keys.length) :
    unusable? keys values = none ↔ ∀ value ∈ values, Weight.isFinite value = true := by
  induction keys generalizing values with
  | nil => simp [List.eq_nil_of_length_eq_zero same, unusable?]
  | cons key keys ih =>
    obtain ⟨value, rest, rfl⟩ := List.exists_cons_of_length_eq_add_one same
    have tail := ih (by simpa using same : rest.length = keys.length)
    by_cases finite : Weight.isFinite value = true <;> simp [unusable?, finite, tail]

theorem valueFaultNone {layout : PropertyLayout} {values : List α} :
    valueFault? layout values = none ↔ Usable layout values := by
  unfold valueFault? Usable
  split
  · rename_i uneven
    simp [uneven]
  · rename_i even
    have same : values.length = layout.keys.length := Decidable.not_not.mp even
    simp [unusableNone same, PropertyLayout.propertyCount, same]

theorem faultCases (layout : PropertyLayout) (values : List α) :
    (∃ e, valueFault? layout values = some e ∧ ¬ Usable layout values) ∨
      valueFault? layout values = none ∧ Usable layout values := by
  cases fault : valueFault? layout values with
  | some e =>
    refine .inl ⟨e, rfl, fun usable => ?_⟩
    rw [valueFaultNone.mpr usable] at fault
    cases fault
  | none => exact .inr ⟨rfl, valueFaultNone.mp fault⟩

theorem unusableRefuses {keys : List String} {values : List α} {e : EngineError}
    (found : unusable? keys values = some e) : e.refuses = true := by
  induction keys generalizing values with
  | nil => cases values <;> cases found
  | cons key keys ih =>
    cases values with
    | nil => cases found
    | cons value values =>
      rw [unusable?] at found
      split at found
      · exact ih found
      · cases found
        rfl

theorem faultRefuses {values : List α} {e : EngineError}
    (fault : valueFault? layout values = some e) : e.refuses = true := by
  unfold valueFault? at fault
  split at fault
  · cases fault
    rfl
  · exact unusableRefuses fault

def link? (idMap : IdMap) (config : BuilderConfig α) (layout : PropertyLayout) :
    Addition α → Option (Link α)
  | .plain source target => mappedLink? idMap source target config.defaults
  | .valued source target values =>
      if Usable layout values then mappedLink? idMap source target values else none
  | .internal source target values =>
      if source < idMap.nodeCount ∧ target < idMap.nodeCount ∧ Usable layout values then
        some ⟨source, target, values⟩
      else none

def dangles (idMap : IdMap) (config : BuilderConfig α) (layout : PropertyLayout) :
    Addition α → Bool
  | .plain source target => dangling idMap config source target
  | .valued source target values =>
      decide (Usable layout values) && dangling idMap config source target
  | .internal _ _ _ => false

theorem takenFull (valid : config.Valid layout) {addition : Addition α} {link : Link α}
    (made : link? idMap config layout addition = some link) :
    link.values.length = layout.propertyCount := by
  cases addition with
  | plain source target =>
    rw [mappedFull made, valid.properties]
    simp [BuilderConfig.defaults]
  | valued source target values =>
    simp only [link?, Option.ite_none_right_eq_some] at made
    rw [mappedFull made.2]
    exact made.1.1
  | internal source target values =>
    simp only [link?, Option.ite_none_right_eq_some, Option.some.injEq] at made
    obtain ⟨⟨-, -, usable⟩, rfl⟩ := made
    exact usable.1

def perform (b : Builder α) : Addition α → Except EngineError Unit × Builder α
  | .plain source target => b.add source target
  | .valued source target values => b.addValues source target values
  | .internal source target values => b.addInternal source target values

def performAll : Builder α → List (Addition α) → Builder α
  | b, [] => b
  | b, addition :: additions => performAll (b.perform addition).2 additions

theorem Known.perform (known : Known idMap config layout b) (addition : Addition α) :
    Answers b (link? idMap config layout addition)
      (dangles idMap config layout addition) (b.perform addition) := by
  cases addition with
  | plain source target =>
    have added := known.addMapped source target b.config.defaults
    rw [known.settings] at added
    simp only [Builder.perform, add, known.settings]
    exact added
  | valued source target values =>
    simp only [Builder.perform, addValues, link?, dangles, known.properties]
    rcases faultCases layout values with ⟨e, fault, unusable⟩ | ⟨fault, usable⟩
    · rw [fault, if_neg unusable, decide_eq_false unusable, Bool.false_and]
      exact .refused (faultRefuses fault)
    · rw [fault, if_pos usable, decide_eq_true usable, Bool.true_and]
      exact known.addMapped source target values
  | internal source target values =>
    simp only [Builder.perform, addInternal, link?, dangles, known.nodes, known.properties]
    by_cases sourceInside : source < idMap.nodeCount
    · rw [if_neg (Nat.not_le.mpr sourceInside)]
      by_cases targetInside : target < idMap.nodeCount
      · rw [if_neg (Nat.not_le.mpr targetInside)]
        rcases faultCases layout values with ⟨e, fault, unusable⟩ | ⟨fault, usable⟩
        · rw [fault, if_neg fun inside => unusable inside.2.2]
          exact .refused (faultRefuses fault)
        · rw [fault, if_pos ⟨sourceInside, targetInside, usable⟩]
          exact .taken ⟨source, target, values⟩
      · rw [if_pos (Nat.not_lt.mp targetInside), if_neg fun inside => targetInside inside.2.1]
        exact .refused rfl
    · rw [if_pos (Nat.not_lt.mp sourceInside), if_neg fun inside => sourceInside inside.1]
      exact .refused rfl

theorem Runs.perform (runs : Runs idMap config layout links b) (valid : config.Valid layout)
    (addition : Addition α) :
    Ends idMap config layout links b (link? idMap config layout addition)
      (b.perform addition) :=
  (runs.known.perform addition).ends runs valid fun _ made => takenFull valid made

theorem Runs.performAll (runs : Runs idMap config layout links b) (valid : config.Valid layout)
    (additions : List (Addition α)) :
    Runs idMap config layout (links ++ additions.filterMap (link? idMap config layout))
      (b.performAll additions) := by
  induction additions generalizing links b with
  | nil => simpa [Builder.performAll] using runs
  | cons addition additions ih =>
    have step := ih (runs.perform valid addition).runs
    cases taken : link? idMap config layout addition with
    | none => simpa [Builder.performAll, taken] using step
    | some link => simpa [Builder.performAll, taken] using step

end Calls
end Builder
end CommunityGraph
