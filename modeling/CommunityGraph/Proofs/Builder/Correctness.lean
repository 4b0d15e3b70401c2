import Mathlib
import CommunityGraph.Proofs.Builder.Arrival

/-! What is built from any calls: every node has the relationships that were taken for it, kept one by
one or merged in the order of their arrival. -/
namespace CommunityGraph
variable {α : Type}

namespace Link

theorem outgoingPerm {xs ys : List (Link α)} (same : xs.Perm ys) (node : Nat) :
    (outgoing node xs).Perm (outgoing node ys) :=
  (same.filter _).map _

def Full (count : Nat) (links : List (Link α)) : Prop :=
  ∀ link ∈ links, link.values.length = count

theorem Full.staged {count : Nat} {links : List (Link α)} (full : Full count links) :
    StagedEntry.Full count (links.map stage) := by
  intro entry member
  obtain ⟨link, taken, rfl⟩ := List.mem_map.mp member
  exact full link taken

end Link

namespace Builder
open AdjacencyBuffer Relationships Link
variable {nodeCount : Nat} {config : BuilderConfig α} {layout : PropertyLayout}
  {links : List (Link α)} {adjacency : AdjacencyList}
  {properties : List (RelationshipProperty α)}

theorem Reads.targetsRead {rows : List (Row α)} {node : Nat}
    (reads : Reads layout rows node adjacency properties) :
    adjacency.targets node = (rows.map Row.target).map UInt64.toNat := by
  rw [AdjacencyList.targets, reads.targets, Option.getD_some, List.map_map]
  rfl

theorem foundAtWord {β : Type} {target : Nat} (small : target < UInt64.size)
    (targets : List UInt64) (values : List β) :
    Row.foundAt target (targets.map UInt64.toNat) values =
      Row.foundAt (UInt64.ofNat target) targets values := by
  have same : ∀ word : UInt64, word.toNat = target ↔ word = UInt64.ofNat target := by
    intro word
    rw [← UInt64.toNat_inj, UInt64.toNat_ofNat_of_lt' small]
  induction targets generalizing values with
  | nil => rfl
  | cons word targets ih =>
    cases values with
    | nil => rfl
    | cons value values =>
      have rest := ih values
      simp only [Row.foundAt, List.map_cons, List.zip_cons_cons, List.filter_cons] at rest ⊢
      by_cases here : word = UInt64.ofNat target
      · simp [here, rest, UInt64.toNat_ofNat_of_lt' small]
      · simp [here, (same word).not.mpr here, rest]

theorem orientedFull {count : Nat} (full : Full count links) (orientation : Orientation) :
    Full count (links.flatMap (Link.oriented orientation)) := by
  intro link member
  obtain ⟨original, taken, made⟩ := List.mem_flatMap.mp member
  have width := full original taken
  cases orientation <;> simp only [oriented, List.mem_cons, List.not_mem_nil, or_false] at made
  · exact made ▸ width
  · exact made ▸ width
  · rcases made with rfl | rfl <;> exact width

theorem arrivedFull {count : Nat} (valid : config.Valid layout) (full : Full count links) :
    Full count (arrivedLinks config links) :=
  fun link member => orientedFull full config.orientation link
    ((arrivedPerm valid links).mem_iff.mp member)

variable [Weight α]

structure Tells (nodeCount : Nat) (layout : PropertyLayout) (links arrivals : List (Link α))
    (adjacency : AdjacencyList) (properties : List (RelationshipProperty α)) : Prop where
  readable : ∀ node < nodeCount, Readable adjacency properties node
  keys : properties.map RelationshipProperty.key = layout.keys
  total : adjacency.relationshipCount = ((List.range nodeCount).map adjacency.degree).sum
  kept : layout.folds = false → ∀ node < nodeCount,
    (adjacency.targets node).Pairwise (· ≤ ·) ∧
      (adjacency.targets node).Perm ((outgoing node links).map Prod.fst) ∧
      (listed adjacency properties node).Perm (outgoing node links)
  folded : layout.folds = true → ∀ node < nodeCount,
    (adjacency.targets node).Pairwise (· < ·) ∧
      ∀ target, target ∈ adjacency.targets node ↔ target ∈ (outgoing node links).map Prod.fst
  arrived : arrivals.Perm links
  merged : layout.folds = true → ∀ node < nodeCount, ∀ target < nodeCount,
    ∀ (index : Nat) (property : RelationshipProperty α), properties[index]? = some property →
    ∃ a, layout.aggregations[index]? = some a ∧
      Row.foundAt target (adjacency.targets node) (property.values node) =
        (a.fold? ((between node target arrivals).filterMap fun values => values[index]?)).toList

theorem Listed.named {entries : List (StagedEntry α)}
    (lists : Listed nodeCount config layout entries adjacency properties)
    (valid : config.Valid layout) {index : Nat} (small : index < layout.propertyCount) :
    ∃ property, properties[index]? = some property ∧
      layout.keys[index]? = some property.key ∧
      layout.aggregations[index]? = some property.aggregation := by
  obtain ⟨store, compacted, -, rfl⟩ := lists
  have any : 0 < store.layout.propertyCount := by
    rw [compacted.properties]
    exact Nat.zero_lt_of_lt small
  obtain ⟨property, found, -, -, key, policy⟩ := namedGet valid store.storage small
  rw [AdjacencyStore.buildProperties any]
  exact ⟨property, found, key, policy⟩

theorem Listed.keys {entries : List (StagedEntry α)}
    (lists : Listed nodeCount config layout entries adjacency properties)
    (valid : config.Valid layout) : properties.map RelationshipProperty.key = layout.keys := by
  have length := lists.length valid
  apply List.ext_getElem?
  intro index
  by_cases small : index < layout.propertyCount
  · obtain ⟨property, found, key, -⟩ := lists.named valid small
    rw [List.getElem?_map, found, key, Option.map_some]
  · have beyond : layout.keys.length ≤ index := Nat.not_lt.mp small
    rw [List.getElem?_eq_none (by rw [List.length_map]; omega), List.getElem?_eq_none beyond]

section Listed
variable {arrivals : List (Link α)} {node : Nat}

theorem Listed.targetsRead
    (lists : Listed nodeCount config layout (arrivals.map Link.stage) adjacency properties)
    (valid : config.Valid layout) (small : node < nodeCount) :
    adjacency.targets node =
      ((finalRows layout (arrivals.map stage) node).map Row.target).map UInt64.toNat :=
  (lists.reads valid small).targetsRead

theorem Listed.kept
    (lists : Listed nodeCount config layout (arrivals.map Link.stage) adjacency properties)
    (valid : config.Valid layout) (words : nodeCount ≤ UInt64.size)
    (inside : Inside nodeCount arrivals) (keeps : layout.folds = false) (small : node < nodeCount) :
    (adjacency.targets node).Pairwise (· ≤ ·) ∧
      (adjacency.targets node).Perm ((outgoing node arrivals).map Prod.fst) ∧
      (listed adjacency properties node).Perm (outgoing node arrivals) := by
  have ascending := Row.arrangeAscending layout (StagedEntry.rowsOf node (arrivals.map stage))
  have rows := (Row.arrangeKept keeps (StagedEntry.rowsOf node (arrivals.map stage))).map Row.read
  rw [readStaged words inside node] at rows
  have targets : ((finalRows layout (arrivals.map stage) node).map Row.read).map Prod.fst =
      adjacency.targets node := by
    rw [lists.targetsRead valid small, List.map_map, List.map_map]
    rfl
  refine ⟨?_, ?_, ?_⟩
  · rw [lists.targetsRead valid small]
    exact List.pairwise_map.mpr (ascending.imp UInt64.le_iff_toNat_le.mp)
  · rw [← targets]
    exact rows.map Prod.fst
  · rw [(lists.reads valid small).listed]
    exact rows

theorem Listed.folded
    (lists : Listed nodeCount config layout (arrivals.map Link.stage) adjacency properties)
    (valid : config.Valid layout) (words : nodeCount ≤ UInt64.size)
    (inside : Inside nodeCount arrivals) (folds : layout.folds = true) (small : node < nodeCount) :
    (adjacency.targets node).Pairwise (· < ·) ∧
      ∀ target, target ∈ adjacency.targets node ↔
        target ∈ (outgoing node arrivals).map Prod.fst := by
  have strict := Row.arrangeFolded folds (StagedEntry.rowsOf node (arrivals.map stage))
  have same : ∀ word, word ∈ (finalRows layout (arrivals.map stage) node).map Row.target ↔
      word ∈ (StagedEntry.rowsOf node (arrivals.map stage)).map Row.target :=
    Row.arrangeTargets layout _
  have read : (outgoing node arrivals).map Prod.fst =
      ((StagedEntry.rowsOf node (arrivals.map stage)).map Row.target).map UInt64.toNat := by
    rw [← readStaged words inside node, List.map_map, List.map_map]
    rfl
  rw [lists.targetsRead valid small]
  refine ⟨List.pairwise_map.mpr (strict.imp UInt64.lt_iff_toNat_lt.mp), fun target => ?_⟩
  rw [read]
  simp only [List.mem_map (f := UInt64.toNat), same]

theorem Listed.merged
    (lists : Listed nodeCount config layout (arrivals.map Link.stage) adjacency properties)
    (valid : config.Valid layout) (words : nodeCount ≤ UInt64.size)
    (inside : Inside nodeCount arrivals) (full : Full layout.propertyCount arrivals)
    (folds : layout.folds = true) (small : node < nodeCount) {target : Nat}
    (targetSmall : target < nodeCount) {index : Nat} {property : RelationshipProperty α}
    (found : properties[index]? = some property) :
    ∃ a, layout.aggregations[index]? = some a ∧
      Row.foundAt target (adjacency.targets node) (property.values node) =
        (a.fold? ((Link.between node target arrivals).filterMap fun values =>
          values[index]?)).toList := by
  have reads := lists.reads valid small
  have inRange : index < layout.propertyCount :=
    lists.length valid ▸ (List.getElem?_eq_some_iff.mp found).1
  have word := Nat.lt_of_lt_of_le targetSmall words
  have wide := full.staged.rows node
  obtain ⟨named, there, -, policy⟩ := lists.named valid inRange
  have values : property.values node =
      Row.column (finalRows layout (arrivals.map stage) node) index := by
    have read := reads.values index property found
    rw [RelationshipProperty.values?] at read
    rw [RelationshipProperty.values, PropertyStorage.values, read, Option.getD_some]
  refine ⟨named.aggregation, policy, ?_⟩
  have arranged := Row.arrangeColumn policy inRange wide (UInt64.ofNat target)
  rw [if_pos folds, Row.foundAtColumn wide inRange, ← Row.readAt word,
    readStaged words inside, ← betweenOutgoing] at arranged
  rw [reads.targetsRead, values, foundAtWord word]
  exact arranged

theorem listedTells
    (lists : Listed nodeCount config layout (arrivals.map Link.stage) adjacency properties)
    (valid : config.Valid layout) (words : nodeCount ≤ UInt64.size)
    (inside : Inside nodeCount arrivals) (full : Full layout.propertyCount arrivals)
    (arrived : arrivals.Perm links) :
    Tells nodeCount layout links arrivals adjacency properties where
  readable node small := (lists.reads valid small).readable (lists.length valid)
  keys := lists.keys valid
  total := lists.total
  kept keeps node small := by
    obtain ⟨ascending, targets, rows⟩ := lists.kept valid words inside keeps small
    have same := outgoingPerm arrived node
    exact ⟨ascending, targets.trans (same.map Prod.fst), rows.trans same⟩
  folded folds node small := by
    obtain ⟨strict, targets⟩ := lists.folded valid words inside folds small
    have same := (outgoingPerm arrived node).map Prod.fst
    exact ⟨strict, fun target => (targets target).trans same.mem_iff⟩
  arrived := arrived
  merged folds node small target targetSmall index property found :=
    lists.merged valid words inside full folds small targetSmall found

end Listed

theorem Built.tells {r : Relationships α}
    (built : Built nodeCount config layout (Builder.arrived config links)
      (inverseArrived config links) r)
    (valid : config.Valid layout) (words : nodeCount ≤ UInt64.size)
    (inside : Inside nodeCount links) (full : Full layout.propertyCount links) :
    Tells nodeCount layout (links.flatMap (Link.oriented config.orientation))
      (arrivedLinks config links) r.topology.adjacency r.properties := by
  have lists := built.lists
  rw [arrivedStaged] at lists
  exact listedTells lists valid words (arrivedInside valid inside) (arrivedFull valid full)
    (arrivedPerm valid links)

theorem linksFull (idMap : IdMap) (valid : config.Valid layout) (additions : List (Addition α)) :
    Full layout.propertyCount (additions.filterMap (link? idMap config layout)) := by
  intro link member
  obtain ⟨addition, -, made⟩ := List.mem_filterMap.mp member
  exact takenFull valid made

theorem Runs.deliversTells {idMap : IdMap} (dense : idMap.Dense) (valid : config.Valid layout)
    {b : Builder α} (runs : Runs idMap config layout [] b) (additions : List (Addition α))
    (t : Termination) (j : Journal) {Good : Relationships α → Prop}
    (good : ∀ r, Tells idMap.nodeCount layout
      ((additions.filterMap (link? idMap config layout)).flatMap
        (Link.oriented config.orientation))
      (arrivedLinks config (additions.filterMap (link? idMap config layout)))
      r.topology.adjacency r.properties → Good r) :
    Delivers t (ShortOfMemory idMap.nodeCount config layout
        (additions.filterMap (link? idMap config layout)))
      Good ((b.performAll additions).build t j).1 :=
  (runs.performAll valid additions).delivers t j fun r built => good r <|
    built.tells valid dense.words (linksInside dense config layout additions)
      (linksFull idMap valid additions)

def Takes (b : Builder α) (addition : Addition α) : Prop :=
  (b.perform addition).1 = .ok () ∧ (b.perform addition).2.dropped = b.dropped

theorem takesLink {idMap : IdMap} {b : Builder α} (runs : Runs idMap config layout links b)
    (valid : config.Valid layout) (addition : Addition α) :
    b.Takes addition ↔ (link? idMap config layout addition).isSome :=
  (runs.perform valid addition).taken

theorem buildTells {idMap : IdMap} (dense : idMap.Dense) {b : Builder α}
    (made : make idMap config = .ok b) (additions : List (Addition α)) (t : Termination)
    (j : Journal) :
    ∃ layout, config.layout = .ok layout ∧
      (∀ before addition after, additions = before ++ addition :: after →
        ((b.performAll before).Takes addition ↔
          (link? idMap config layout addition).isSome)) ∧
      (config.concurrency = 1 → ∀ links : List (Link α),
        arrivedLinks config links = links.flatMap (Link.oriented config.orientation)) ∧
      Delivers t (ShortOfMemory idMap.nodeCount config layout
          (additions.filterMap (link? idMap config layout)))
        (fun r => Tells idMap.nodeCount layout
          ((additions.filterMap (link? idMap config layout)).flatMap
            (Link.oriented config.orientation))
          (arrivedLinks config (additions.filterMap (link? idMap config layout)))
          r.topology.adjacency r.properties)
        ((b.performAll additions).build t j).1 := by
  obtain ⟨layout, found, valid, runs⟩ := makeRuns made
  exact ⟨layout, found, fun before addition _ _ =>
    takesLink (runs.performAll valid before) valid addition, fun alone links => by
      rw [arrivedLinks, alone, Schedule.arrivalsAlone, List.flatMap_def],
    runs.deliversTells dense valid additions t j fun _ tells => tells⟩

def outcome (idMap : IdMap) (config : BuilderConfig Rat) (additions : List (Addition Rat)) :
    Except EngineError (Relationships Rat) :=
  match make idMap config with
  | .error e => .error e
  | .ok b => ((b.performAll additions).build .always .empty).1

theorem outcomeOk {idMap : IdMap} {config : BuilderConfig Rat} {additions : List (Addition Rat)}
    {b : Builder Rat} (made : make idMap config = .ok b)
    (works : (outcome idMap config additions).toBool = true) :
    ∃ r, ((b.performAll additions).build .always .empty).1 = .ok r := by
  simp only [outcome, made] at works
  cases ended : ((b.performAll additions).build .always .empty).1 with
  | error e =>
    rw [ended] at works
    cases works
  | ok r => exact ⟨r, rfl⟩

def sampleConfig : BuilderConfig Rat :=
  ⟨.undirected, .single, [⟨"weight", none, 1⟩, ⟨"cost", some .sum, 0⟩], false, false, 2, 3⟩

def sampleAdditions : List (Addition Rat) :=
  [.valued 0 1 [5, 2], .plain 0 1, .internal 2 1 [4, 4], .valued 0 1 [7, 1], .plain 9 1]

theorem sampleTells : ∃ b layout r, (IdMap.direct 3).Dense ∧ make (.direct 3) sampleConfig = .ok b ∧
    ((b.performAll sampleAdditions).build .always .empty).1 = .ok r ∧
    Tells 3 layout ((sampleAdditions.filterMap (link? (.direct 3) sampleConfig layout)).flatMap
        (Link.oriented .undirected))
      (arrivedLinks sampleConfig
        (sampleAdditions.filterMap (link? (.direct 3) sampleConfig layout)))
      r.topology.adjacency r.properties := by
  have dense : (IdMap.direct 3).Dense := IdMap.directDense (by decide)
  obtain ⟨b, made⟩ : ∃ b, make (.direct 3) sampleConfig = .ok b := ⟨_, rfl⟩
  have works : (outcome (.direct 3) sampleConfig sampleAdditions).toBool = true := by cbv
  obtain ⟨r, built⟩ := outcomeOk made works
  obtain ⟨layout, -, -, -, delivered⟩ := buildTells dense made sampleAdditions .always .empty
  rw [built] at delivered
  exact ⟨b, layout, r, dense, made, built, delivered⟩

end Builder
end CommunityGraph
