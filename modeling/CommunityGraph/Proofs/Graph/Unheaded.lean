import CommunityGraph.Proofs.Graph.Loading
import CommunityGraph.Proofs.IdMap

/-! A graph file without a header. All of its ids are numbered, so every edge finds both of its ends, and
the graph tells of the edges of the file, in the ids of the file. -/
namespace CommunityGraph

namespace GraphRecord

end GraphRecord

namespace GraphFile
open Builder Link

def idsOf (records : List GraphRecord) : List Int := records.flatMap GraphRecord.ids

theorem edgeIds {records : List GraphRecord} {edge : FileEdge} (member : edge ∈ edgesOf records) :
    edge.1 ∈ idsOf records ∧ edge.2.1 ∈ idsOf records := by
  obtain ⟨record, there, told⟩ := List.mem_filterMap.mp member
  cases record with
  | header | vertex | skip => cases told
  | edge source target weight =>
    cases told
    exact ⟨List.mem_flatMap.mpr ⟨_, there, by simp [GraphRecord.ids]⟩,
      List.mem_flatMap.mpr ⟨_, there, by simp [GraphRecord.ids]⟩⟩

def edgeValues (weighted : Bool) (edge : FileEdge) : List Float :=
  if weighted then [edge.2.2.getD 1.0] else []

def edgeAddition (weighted : Bool) (edge : FileEdge) : Addition Float :=
  .valued edge.1 edge.2.1 (edgeValues weighted edge)

def edgeLink? (idMap : IdMap) (weighted : Bool) (edge : FileEdge) : Option (Link Float) :=
  mappedLink? idMap edge.1 edge.2.1 (edgeValues weighted edge)

section Adding
variable {c : LoaderConfig} {weighted : Bool} {idMap : IdMap} {layout : PropertyLayout}
  {links : List (Link Float)} {b : Builder Float} {edges : List FileEdge}

end Adding

section Loading
variable {c : LoaderConfig} {records : List GraphRecord} {b : Builder Float} {m : Machine}

def weightedOf (records : List GraphRecord) : Bool := isWeighted (edgesOf records)

def fileLayout (c : LoaderConfig) (weighted : Bool) : PropertyLayout :=
  ⟨if weighted then [weightKey] else [], if weighted then [c.aggregation] else [], c.aggregation⟩

theorem fileLayoutOk (workers : 0 < c.concurrency) (size : 0 < c.bufferSize) (weighted : Bool) :
    (directConfig c weighted).layout = .ok (fileLayout c weighted) := by
  have plain : ¬ ((directConfig c weighted).indexInverse = true ∧
    (directConfig c weighted).orientation = .undirected) := by simp [directConfig]
  unfold BuilderConfig.layout
  rw [requirePositivePasses _ (show 0 < (directConfig c weighted).concurrency from workers),
    requirePositivePasses _ (show 0 < (directConfig c weighted).bufferSize from size)]
  simp only [if_neg plain]
  cases weighted with
  | false => rfl
  | true =>
    have one : requireUniform [weightKey] [c.aggregation] = .ok () := by
      unfold requireUniform
      cases c.aggregation <;> rfl
    have made : PropertyLayout.make [weightKey] [c.aggregation] c.aggregation =
        .ok (fileLayout c true) := by
      simp [PropertyLayout.make, one, fileLayout]
    exact made

def fileLinks (records : List GraphRecord) : List (Link Float) :=
  (edgesOf records).filterMap
    (edgeLink? (.table (.collect (idsOf records))) (weightedOf records))

theorem edgesMapped (records : List GraphRecord) (weighted : Bool) :
    ∀ edge ∈ edgesOf records,
      (edgeLink? (.table (.collect (idsOf records))) weighted edge).isSome := by
  intro edge member
  have numbers := IdTable.collectNumbers (idsOf records)
  obtain ⟨source, target⟩ := edgeIds member
  obtain ⟨s, -, externalSource⟩ := (numbers.onto _).mp source
  obtain ⟨t, -, externalTarget⟩ := (numbers.onto _).mp target
  have mappedSource := (numbers.mapped _ _).mpr externalSource
  have mappedTarget := (numbers.mapped _ _).mpr externalTarget
  simp [edgeLink?, mappedLink?, IdMap.mapped?, mappedSource, mappedTarget]

def fileBlocks (c : LoaderConfig) (records : List GraphRecord) : List Nat :=
  Builder.blocks (directConfig c (weightedOf records)) (idMap records).nodeCount
    (fileLayout c (weightedOf records)).propertyCount

/-- Blocks of up to 47 bits can be had for the lists of the graph, which is enough unless there are too
many edges. -/
def Unlisted (records : List GraphRecord) (e : EngineError) : Prop :=
  (∃ bytes, e = .allocationFailed bytes) ∧ Memory.maxBlock < 18 * (edgesOf records).length

inductive Refused (m : Machine) (c : LoaderConfig) (records : List GraphRecord) :
    EngineError → Prop where
  | memory {e : EngineError} (refuses : m.Refuses 0 (fileBlocks c records) e) : Refused m c records e
  | threads {reason : String} (refusal : m.refusal c.concurrency = some reason) :
      Refused m c records (.workersUnavailable reason)
  | list {e : EngineError} (unlisted : Unlisted records e) : Refused m c records e

theorem orientedLength (orientation : Orientation) (links : List (Link Float)) :
    (links.flatMap (oriented orientation)).length ≤ 2 * links.length := by
  induction links with
  | nil => rfl
  | cons link links ih =>
    rw [List.flatMap_cons, List.length_append, List.length_cons]
    have one : (oriented orientation link).length ≤ 2 := by cases orientation <;> simp [oriented]
    omega

theorem fileRows {layout : PropertyLayout} {links : List (Link Float)}
    (valid : (directConfig c (weightedOf records)).Valid layout)
    (few : links.length ≤ (edgesOf records).length) (node : Nat) :
    (AdjacencyBuffer.finalRows layout
      (arrived (directConfig c (weightedOf records)) links) node).length ≤
        2 * (edgesOf records).length := by
  have arranged := Row.arrangeShort layout (StagedEntry.rowsOf node
    (arrived (directConfig c (weightedOf records)) links))
  have chosen : (StagedEntry.rowsOf node
      (arrived (directConfig c (weightedOf records)) links)).length ≤
        (arrivedLinks (directConfig c (weightedOf records)) links).length := by
    rw [arrivedStaged, StagedEntry.rowsOf, List.length_map]
    exact (List.length_filter_le _ _).trans (by rw [List.length_map])
  have all := (arrivedPerm valid links).length_eq
  have twice := orientedLength (directConfig c (weightedOf records)).orientation links
  exact arranged.trans (by omega)

theorem buildEnds {links : List (Link Float)}
    (runs : Runs (idMap records) (directConfig c (weightedOf records))
      (fileLayout c (weightedOf records)) links b)
    (valid : (directConfig c (weightedOf records)).Valid (fileLayout c (weightedOf records)))
    (few : links.length ≤ (edgesOf records).length)
    (t : Termination) {Good : Relationships Float → Prop}
    (good : ∀ r, Built (idMap records).nodeCount (directConfig c (weightedOf records))
      (fileLayout c (weightedOf records)) (arrived (directConfig c (weightedOf records)) links)
      (inverseArrived (directConfig c (weightedOf records)) links) r → Good r) :
    Run.Ends t (Unlisted records) Good b.build := by
  intro j
  have ended := runs.delivers t j good
  generalize (b.build t j).1 = outcome at ended ⊢
  cases outcome with
  | ok r => exact ended
  | error e =>
    rcases ended with stopped | ⟨failed, node, -, costly⟩ | ⟨inverted, -⟩
    · exact .inl stopped
    · refine .inr ⟨failed, ?_⟩
      by_contra enough
      have single : (fileLayout c (weightedOf records)).propertyCount ≤ 1 := by
        cases weighted : weightedOf records <;> simp [fileLayout, PropertyLayout.propertyCount]
      have columns := Nat.mul_le_mul_left (2 * (edgesOf records).length) single
      exact costly (AdjacencyStore.storableShort (fileRows valid few node) (by omega) (by omega))
    · exact absurd inverted (by simp [directConfig])

theorem comparesEnds (c : LoaderConfig) (records : List GraphRecord) (actual : Nat)
    {t : Termination} {Failure : EngineError → Prop} :
    Run.Ends t Failure (fun _ => True) (compareHeader c records actual) := by
  intro j
  rw [comparesOk]
  exact trivial

def completed (m : Machine) (c : LoaderConfig) (records : List GraphRecord)
    (builder : Builder Float) : Run (Graph Float) := do
  let relationships ← Run.phase "Build" records.length (addAndBuild m records builder)
  let graph : Graph Float := ⟨relationships, (idMap records).table?⟩
  compareHeader c records graph.relationshipCount
  Run.log .info "graph loaded" []
  pure graph

def opened (m : Machine) (c : LoaderConfig) (records : List GraphRecord) : Run (Graph Float) := do
  let builder ← Run.ofExcept (Builder.make (idMap records) (directConfig c (weightedOf records)) m)
  completed m c records builder

def afterParse (content : List UInt8) (j : Journal) : Journal :=
  (afterLines (Text.pieces 10 content)
    (j.note (.begin "Parse" (Text.pieces 10 content).length))).note (.finish "Parse")

theorem completedRefused {links : List (Link Float)} {after : Builder Float} {reason : String}
    (added : addEach addRecord records b = (.ok (), after))
    (runs : Runs (idMap records) (directConfig c (weightedOf records))
      (fileLayout c (weightedOf records)) links after)
    (workers : 0 < c.concurrency) (refused : m.refusal c.concurrency = some reason)
    (t : Termination) (j : Journal) :
    (completed m c records b t j).1 = .error (.workersUnavailable reason) := by
  have same : after.config.concurrency = c.concurrency :=
    congrArg BuilderConfig.concurrency runs.settings
  refine Run.bindFailed (Run.phaseFailed ?_) _
  rw [addAndBuild, added]
  dsimp only
  rw [Builder.buildOnRefused (same ▸ workers) (same ▸ refused)]
  rfl

theorem completedEnds {links : List (Link Float)} {after : Builder Float}
    (added : addEach addRecord records b = (.ok (), after))
    (granted : m.refusal c.concurrency = none)
    (runs : Runs (idMap records) (directConfig c (weightedOf records))
      (fileLayout c (weightedOf records)) links after)
    (valid : (directConfig c (weightedOf records)).Valid (fileLayout c (weightedOf records)))
    (few : links.length ≤ (edgesOf records).length) (t : Termination) :
    Run.Ends t (Unlisted records)
      (fun g => g.externalIds = (idMap records).table? ∧
        Built (idMap records).nodeCount (directConfig c (weightedOf records))
          (fileLayout c (weightedOf records)) (arrived (directConfig c (weightedOf records)) links)
          (inverseArrived (directConfig c (weightedOf records)) links) g.relationships)
      (completed m c records b) := by
  have same : after.config.concurrency = c.concurrency :=
    congrArg BuilderConfig.concurrency runs.settings
  unfold completed addAndBuild
  rw [added]
  dsimp only
  rw [Builder.buildOnGranted (runs.settings ▸ valid.concurrency) (same ▸ granted)]
  refine ((buildEnds runs valid few t fun r built => built).bind fun r built =>
    (Run.endsNote _).bind fun _ _ => Run.Ends.pure built).phase _ _ |>.bind fun r built => ?_
  refine (comparesEnds _ _ _).bind fun _ _ => (Run.endsLog _ _ _).bind fun _ _ => ?_
  exact Run.Ends.pure ⟨rfl, built⟩

structure Numbered (c : LoaderConfig) (records : List GraphRecord) (g : Graph Float) : Prop where
  ids : g.externalIds = some (.collect (idsOf records))
  tells : ∃ arrivals, Graph.Tells (IdTable.collect (idsOf records)).nodeCount
    (fileLayout c (weightedOf records))
    ((fileLinks records).flatMap (oriented c.orientation)) arrivals g

theorem makeFile (workers : 0 < c.concurrency) (size : 0 < c.bufferSize)
    (made : Builder.make (idMap records) (directConfig c (weightedOf records)) m = .ok b) :
    (directConfig c (weightedOf records)).Valid (fileLayout c (weightedOf records)) ∧
      Runs (idMap records) (directConfig c (weightedOf records)) (fileLayout c (weightedOf records))
        [] b := by
  obtain ⟨layout, found, valid, runs⟩ := makeRuns made
  obtain rfl := Except.ok.inj ((fileLayoutOk workers size _).symm.trans found)
  exact ⟨valid, runs⟩

end Loading

section Results
variable {c : LoaderConfig} {records records' : List GraphRecord} {g g' : Graph Float}

theorem Numbered.external (numbered : Numbered c records g) {node : Nat} {id : Int}
    (found : (IdTable.collect (idsOf records)).external? node = some id) :
    g.externalId node = id := by
  rw [Graph.externalId, numbered.ids, Option.bind_some, found, Option.getD_some]

def orientedEdge (orientation : Orientation) (edge : FileEdge) : List (Int × Int × Float) :=
  let weight := edge.2.2.getD 1.0
  match orientation with
  | .natural => [(edge.1, edge.2.1, weight)]
  | .reverse => [(edge.2.1, edge.1, weight)]
  | .undirected => [(edge.1, edge.2.1, weight), (edge.2.1, edge.1, weight)]

theorem valuesWeight {edges : List FileEdge} {edge : FileEdge} (member : edge ∈ edges) :
    (edgeValues (isWeighted edges) edge).headD Weight.one = edge.2.2.getD 1.0 := by
  cases weighted : isWeighted edges with
  | true => rfl
  | false =>
    have unweighted := Option.not_isSome_iff_eq_none.mp (List.any_eq_false.mp weighted edge member)
    rw [unweighted]
    rfl

theorem Numbered.linkEdge (numbered : Numbered c records g) {edge : FileEdge}
    (member : edge ∈ edgesOf records) :
    ∃ link, edgeLink? (.table (.collect (idsOf records))) (weightedOf records) edge = some link ∧
      (oriented c.orientation link).map (fun link =>
        (g.externalId link.source, g.externalId link.target, link.values.headD Weight.one)) =
        orientedEdge c.orientation edge := by
  obtain ⟨link, made⟩ := Option.isSome_iff_exists.mp (edgesMapped records (weightedOf records) edge member)
  have numbers := IdTable.collectNumbers (idsOf records)
  have weight := valuesWeight member
  refine ⟨link, made, ?_⟩
  unfold edgeLink? mappedLink? at made
  split at made
  · rename_i s t source target
    have ends : g.externalId s = edge.1 ∧ g.externalId t = edge.2.1 :=
      ⟨numbered.external ((numbers.mapped _ _).mp source),
        numbered.external ((numbers.mapped _ _).mp target)⟩
    cases made
    cases c.orientation <;>
      simp only [oriented, swap, orientedEdge, List.map_cons, List.map_nil, ends, weightedOf, weight]
  · cases made

theorem Numbered.fileEdges (numbered : Numbered c records g) :
    ((fileLinks records).flatMap (oriented c.orientation)).map (fun link =>
        (g.externalId link.source, g.externalId link.target, link.values.headD Weight.one)) =
      (edgesOf records).flatMap (orientedEdge c.orientation) := by
  have told := fun (edge : FileEdge) (member : edge ∈ edgesOf records) => numbered.linkEdge member
  unfold fileLinks
  -- The induction is on the edges alone; what they are numbered by stays that of the whole file.
  generalize edgesOf records = edges at told
  induction edges with
  | nil => rfl
  | cons edge edges ih =>
    obtain ⟨link, made, same⟩ := told edge (by simp)
    have rest := ih fun other member => told other (List.mem_cons_of_mem _ member)
    rw [List.filterMap_cons, made, List.flatMap_cons, List.map_append, same, rest, List.flatMap_cons]

structure Keeps (c : LoaderConfig) (records : List GraphRecord) (g : Graph Float) : Prop where
  nodes : g.nodeCount = (idsOf records).toFinset.card
  ascending : ∀ a b, a < b → b < g.nodeCount → g.externalId a < g.externalId b
  onto : ∀ id, id ∈ idsOf records ↔ ∃ node < g.nodeCount, g.externalId node = id
  rows : ∀ node < g.nodeCount, (g.row? node).isSome
  edges : c.aggregation = .none →
    g.externalEdges.Perm ((edgesOf records).flatMap (orientedEdge c.orientation))

theorem Numbered.keeps (numbered : Numbered c records g) : Keeps c records g := by
  have numbers := IdTable.collectNumbers (idsOf records)
  obtain ⟨arrivals, tells⟩ := numbered.tells
  have keys : (fileLayout c (weightedOf records)).keys =
    if weightedOf records then [weightKey] else [] := rfl
  constructor
  · rw [tells.nodes, IdTable.collectCount]
  · intro a b below inside
    rw [tells.nodes] at inside
    obtain ⟨id, found⟩ := IdTable.externalInside (below.trans inside)
    obtain ⟨id', found'⟩ := IdTable.externalInside inside
    rw [numbered.external found, numbered.external found']
    exact numbers.ascending a b id id' found found' below
  · intro id
    rw [numbers.onto, tells.nodes]
    constructor
    · rintro ⟨node, inside, found⟩
      exact ⟨node, inside, numbered.external found⟩
    · rintro ⟨node, inside, rfl⟩
      obtain ⟨id, found⟩ := IdTable.externalInside inside
      exact ⟨node, inside, numbered.external found ▸ found⟩
  · intro node inside
    have readable := tells.tells.readable node (tells.nodes ▸ inside)
    rw [Graph.rowListed readable (tells.tells.keys.trans keys)]
    rfl
  · intro plain
    have keeps : (fileLayout c (weightedOf records)).folds = false := by
      cases weightedOf records <;> simp [fileLayout, PropertyLayout.folds, plain] <;> rfl
    exact numbered.fileEdges ▸ tells.externalEdges keeps keys

end Results

end GraphFile
end CommunityGraph
