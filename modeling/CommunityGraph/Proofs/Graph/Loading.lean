import CommunityGraph.Proofs.Builder.Direct
import CommunityGraph.Proofs.Graph.Lines
import CommunityGraph.Proofs.Stopping

/-! A graph file with a header against a builder that is given the edges of the file in line order. -/
namespace CommunityGraph

namespace GraphFile
open Builder

abbrev FileEdge := Int × Int × Option Float

def isWeighted (edges : List FileEdge) : Bool := edges.any fun edge => edge.2.2.isSome

def addFileEdge (weighted : Bool) (edge : FileEdge) (b : Builder Float) :
    Except EngineError Unit × Builder Float :=
  b.addValues edge.1 edge.2.1 (if weighted then [edge.2.2.getD 1.0] else [])

def directConfig (c : LoaderConfig) (weighted : Bool) : BuilderConfig Float where
  orientation := c.orientation
  aggregation := c.aggregation
  properties := if weighted then [.weight] else []
  indexInverse := false
  skipDangling := c.skipDangling
  concurrency := c.concurrency
  bufferSize := c.bufferSize

def builtDirectly (c : LoaderConfig) (nodeCount : Nat) (edges : List FileEdge) :
    Run (Graph Float) := do
  let weighted := isWeighted edges
  let builder ← Run.ofExcept (Builder.make (.direct nodeCount) (directConfig c weighted))
  match Builder.addEach (addFileEdge weighted) edges builder with
  | (.error e, _) => Run.fail e
  | (.ok (), builder) => do
      let relationships ← builder.build
      pure ⟨relationships, none⟩

section Adding
variable {c : LoaderConfig} {weighted : Bool} {idMap : IdMap} {layout : PropertyLayout}
  {links : List (Link Float)} {b : Builder Float}

theorem defaultsUsable (valid : (directConfig c weighted).Valid layout) :
    Usable layout (directConfig c weighted).defaults := by
  refine ⟨?_, fun value member => ?_⟩
  · rw [valid.properties]
    simp [BuilderConfig.defaults]
  · cases weighted with
    | false => cases member
    | true =>
      have one : Float.isFinite 1.0 = true := by decide
      obtain rfl : value = PropertyConfig.weight.defaultValue := by
        simpa [BuilderConfig.defaults, directConfig] using member
      exact one

theorem Runs.addFile (valid : (directConfig c weighted).Valid layout) (edge : FileEdge)
    (b : Builder Float) (added : ∃ links, Runs idMap (directConfig c weighted) layout links b) :
    ∃ links, Runs idMap (directConfig c weighted) layout links (addFileEdge weighted edge b).2 := by
  obtain ⟨links, runs⟩ := added
  exact ⟨_, (runs.perform valid (.valued edge.1 edge.2.1
    (if weighted then [edge.2.2.getD 1.0] else []))).runs⟩

theorem Runs.addRecord (runs : Runs idMap (directConfig c weighted) layout links b)
    (valid : (directConfig c weighted).Valid layout) {record : GraphRecord}
    (weights : record.isWeightedEdge = true → weighted = true) :
    addRecord record b = record.edge?.elim (.ok (), b) fun edge => addFileEdge weighted edge b := by
  cases record with
  | header | vertex | skip => rfl
  | edge source target weight =>
    cases weight with
    | some weight =>
      obtain rfl := weights rfl
      rfl
    | none =>
      have values : (directConfig c weighted).defaults =
          if weighted then [(1.0 : Float)] else [] := by cases weighted <;> rfl
      have usable := valueFaultNone.mpr (defaultsUsable valid)
      rw [← runs.properties, values] at usable
      have added : b.addValues source target (if weighted then [(1.0 : Float)] else []) =
          b.addMapped source target (if weighted then [(1.0 : Float)] else []) := by
        simp only [Builder.addValues, usable]
      have settings := congrArg BuilderConfig.defaults runs.settings
      exact (congrArg (b.addMapped source target) (settings.trans values)).trans added.symm

theorem Runs.addRecords (runs : Runs idMap (directConfig c weighted) layout links b)
    (valid : (directConfig c weighted).Valid layout) {records : List GraphRecord}
    (weights : ∀ record ∈ records, record.isWeightedEdge = true → weighted = true) :
    Builder.addEach GraphFile.addRecord records b =
      Builder.addEach (addFileEdge weighted) (edgesOf records) b := by
  refine addEachTold id (fun record member b ⟨links, runs⟩ => ?_) (Runs.addFile valid) ⟨links, runs⟩
  exact Runs.addRecord runs valid (weights record member)

end Adding

section Loading
variable {content content' : List UInt8} {records : List GraphRecord} {c : LoaderConfig}
  {nodeCount announcedCount : Nat}

theorem weightedEdges (records : List GraphRecord) :
    records.any GraphRecord.isWeightedEdge = isWeighted (edgesOf records) := by
  induction records with
  | nil => rfl
  | cons record records ih =>
    rw [List.any_cons, ih]
    cases record with
    | header | vertex | skip => rfl
    | edge source target weight => cases weight <;> rfl

theorem recordWeighted {record : GraphRecord} (member : record ∈ records)
    (weighted : record.isWeightedEdge = true) : isWeighted (edgesOf records) = true :=
  (weightedEdges records).symm.trans (List.any_eq_true.mpr ⟨record, member, weighted⟩)

theorem comparesOk (c : LoaderConfig) (records : List GraphRecord) (actual : Nat) (t : Termination)
    (j : Journal) : (compareHeader c records actual t j).1 = .ok () := by
  unfold compareHeader
  cases announced c records with
  | none => rfl
  | some expected =>
    dsimp only
    split_ifs <;> rfl

theorem loadsDirectly (parses : Parses (Text.pieces 10 content) records)
    (header : records.findSome? GraphRecord.counts? = some (nodeCount, announcedCount)) :
    Run.Matches (fun g g' => g = g') (loadFile (some content) c)
      (builtDirectly c nodeCount (edgesOf records)) := by
  have ids : idMap records = .direct nodeCount := by simp only [idMap, header]
  have read : Run.Gives (readLines 1 (Text.pieces 10 content)) records :=
    fun j => congrArg Prod.fst (readLinesParsed parses 1 .always j)
  have running : Run.Gives Run.assertRunning () := fun _ => rfl
  unfold loadFile loadFileOn load builtDirectly
  -- All lines are read, and the builder is made, before the first edge is added.
  refine (read.phase _ _).onwards (running.onwards ?_)
  dsimp only
  rw [ids, weightedEdges]
  have settings : c.builder (isWeighted (edgesOf records)) =
    directConfig c (isWeighted (edgesOf records)) := rfl
  rw [settings]
  refine (makeMatches id (congrFun Except.map_id _).symm).bind ?_
  rintro _ b ⟨rfl, layout, valid, runs⟩
  unfold addAndBuild
  rw [Runs.addRecords runs valid fun _ => recordWeighted]
  have kept := Builder.addEachHolds (Runs.addFile valid) (edgesOf records) ⟨_, runs⟩
  generalize Builder.addEach (addFileEdge (isWeighted (edgesOf records))) (edgesOf records) b = answer
    at kept
  obtain ⟨outcome, after⟩ := answer
  obtain ⟨added, further⟩ := kept
  have workers : 0 < after.config.concurrency := further.settings ▸ valid.concurrency
  cases outcome with
  | error e => exact fun _ _ => rfl
  | ok =>
    have built : Run.Matches (fun r r' => r = r') after.build after.build :=
      (buildSteps after).heeds.matches
    dsimp only
    rw [buildOnGranted workers rfl]
    have logged : Run.Gives (Run.log .info "graph loaded" []) () := fun _ => rfl
    refine ((built.quietly fun _ _ => rfl).phase _ _).bind ?_
    rintro r _ rfl
    exact Run.Gives.onwards (comparesOk _ _ _ .always) (logged.onwards (Run.Matches.pure rfl))

theorem loadsEdited (parses : Parses (Text.pieces 10 content) records)
    (header : records.findSome? GraphRecord.counts? = some (nodeCount, announcedCount))
    (edited : Edited (Text.pieces 10 content) (Text.pieces 10 content')) :
    Run.Matches (fun g g' => g = g') (loadFile (some content') c) (loadFile (some content) c) := by
  obtain ⟨records', parses', header', edges⟩ := edited.told parses
  have first := loadsDirectly (c := c) parses header
  have second := loadsDirectly (c := c) parses' (header'.trans header)
  rw [edges] at second
  exact second.trans first.symm

end Loading

section Edges
variable {c : LoaderConfig} {layout : PropertyLayout} {links : List (Link Float)}
  {b : Builder Float} {nodeCount : Nat} {edges : List (Nat × Nat × Float)}

def fileEdge (edge : Nat × Nat × Float) : FileEdge := (edge.1, edge.2.1, some edge.2.2)

theorem Runs.addEdges (runs : Runs (.direct nodeCount) (directConfig c true) layout links b)
    (valid : (directConfig c true).Valid layout)
    (inside : ∀ edge ∈ edges, edge.1 < nodeCount ∧ edge.2.1 < nodeCount) :
    Builder.addEach Graph.addEdge edges b.strict =
      ((Builder.addEach (addFileEdge true) (edges.map fileEdge) b).1,
        (Builder.addEach (addFileEdge true) (edges.map fileEdge) b).2.strict) := by
  rw [← List.filterMap_eq_map]
  refine addEachTold strict (fun edge member b ⟨links, runs⟩ => ?_) (Runs.addFile valid) ⟨links, runs⟩
  exact runs.addInternalStrict (inside edge member).1 (inside edge member).2 [edge.2.2]

def edgesConfig (c : LoaderConfig) : BuilderConfig Float :=
  { (BuilderConfig.default : BuilderConfig Float) with
    orientation := c.orientation
    properties := [.weight]
    concurrency := c.concurrency }

theorem edgesMatch (any : edges ≠ []) (plain : c.aggregation = .none)
    (size : c.bufferSize = defaultBufferSize)
    (inside : ∀ edge ∈ edges, edge.1 < nodeCount ∧ edge.2.1 < nodeCount) :
    Run.Matches (fun g g' => g = g') (builtDirectly c nodeCount (edges.map fileEdge))
      (Graph.ofEdges nodeCount edges c.orientation c.concurrency) := by
  have weighted : isWeighted (edges.map fileEdge) = true := by
    obtain ⟨edge, rest, rfl⟩ := List.exists_cons_of_ne_nil any
    rfl
  have config : edgesConfig c = { directConfig c true with skipDangling := false } := by
    simp only [directConfig, plain, size]
    rfl
  have opened : Builder.make (.direct nodeCount) (edgesConfig c) =
    (Builder.make (.direct nodeCount) (directConfig c true)).map strict := config ▸ makeStrict _ _
  unfold edgesConfig at opened
  unfold builtDirectly Graph.ofEdges
  dsimp only
  rw [weighted]
  refine (makeMatches strict opened).bind ?_
  rintro b _ ⟨rfl, layout, valid, runs⟩
  rw [Runs.addEdges runs valid inside]
  generalize Builder.addEach (addFileEdge true) (edges.map fileEdge) b = answer
  obtain ⟨outcome, after⟩ := answer
  cases outcome with
  | error e => exact fun _ _ => rfl
  | ok =>
    have built : Run.Matches (fun r r' => r = r') after.build after.build :=
      (buildSteps after).heeds.matches
    dsimp only
    rw [buildStrict]
    refine built.bind ?_
    rintro r _ rfl
    exact Run.Matches.pure rfl

end Edges

section Void
variable {c : LoaderConfig} {nodeCount : Nat}

theorem directLayout (plain : c.aggregation = .none) (size : c.bufferSize = defaultBufferSize) :
    (directConfig c false).layout =
      (requirePositive "concurrency" c.concurrency).map fun _ => ⟨[], [], .none⟩ := by
  unfold BuilderConfig.layout
  simp only [directConfig, plain, size]
  cases requirePositive "concurrency" c.concurrency <;> rfl

theorem edgesLayout (c : LoaderConfig) : (edgesConfig c).layout =
    (requirePositive "concurrency" c.concurrency).map fun _ => ⟨[weightKey], [.none], .none⟩ := by
  unfold BuilderConfig.layout
  simp only [edgesConfig]
  cases requirePositive "concurrency" c.concurrency <;> rfl

theorem makeEmpty (plain : c.aggregation = .none) (size : c.bufferSize = defaultBufferSize) :
    Run.Paired (fun b b' => Builder.make (.direct nodeCount) (directConfig c false) = .ok b ∧
        Builder.make (.direct nodeCount) (edgesConfig c) = .ok b')
      (Builder.make (.direct nodeCount) (directConfig c false))
      (Builder.make (.direct nodeCount) (edgesConfig c)) := by
  have default : (directConfig c false).bufferSize = defaultBufferSize := size
  have held : LocalBuffer.canHold (directConfig c false).bufferSize 0 = true := by
    rw [default]
    decide
  have held' : LocalBuffer.canHold (edgesConfig c).bufferSize 1 = true := by
    show LocalBuffer.canHold defaultBufferSize 1 = true
    decide
  have layout := directLayout plain size
  have layout' := edgesLayout c
  cases positive : requirePositive "concurrency" c.concurrency with
  | error e =>
    rw [positive] at layout layout'
    rw [makeInvalid layout, makeInvalid layout']
    rfl
  | ok =>
    rw [positive] at layout layout'
    rw [makeAmple _ layout, makeAmple _ layout']
    -- The two ask for as many slots, and their buffers are small.
    by_cases slots : Memory.canAsk c.concurrency BuilderSlot.bytes = true
    · rw [if_pos ⟨slots, held⟩, if_pos ⟨slots, held'⟩]
      exact ⟨rfl, rfl⟩
    · rw [if_neg fun enough => slots enough.1, if_neg fun enough => slots enough.1]
      rfl

theorem noEdgesMatch (plain : c.aggregation = .none) (size : c.bufferSize = defaultBufferSize) :
    Run.Matches Graph.Alike (builtDirectly c nodeCount [])
      (Graph.ofEdges nodeCount [] c.orientation c.concurrency) := by
  unfold builtDirectly Graph.ofEdges
  refine (Run.matchesExcept (makeEmpty plain size)).bind ?_
  rintro b b' ⟨made, made'⟩
  obtain ⟨layout, -, valid, runs⟩ := makeRuns made
  obtain ⟨layout', -, valid', runs'⟩ := makeRuns made'
  refine (Run.matchesEnds (runs.buildsVoid valid rfl) (runs'.buildsVoid valid' rfl)).bind ?_
  rintro r r' ⟨void, void'⟩
  exact Run.Matches.pure (void.alike void')

end Void

section Results
variable {content : List UInt8} {nodeCount announcedCount : Nat}

/-- A file with a header loads as its edges are built, whatever stands between them, and as edges that
are given directly. -/
theorem headedBuilds
    (parses : ∀ line ∈ Text.pieces 10 content, (GraphRecord.read? line).isSome = true)
    (header : (recordsOf content).findSome? GraphRecord.counts? = some (nodeCount, announcedCount))
    (c : LoaderConfig) :
    Run.Matches (fun g g' => g = g') (loadFile (some content) c)
      (builtDirectly c nodeCount (edgesOf (recordsOf content))) ∧
    (∀ content', Edited (Text.pieces 10 content) (Text.pieces 10 content') →
      Run.Matches (fun g g' => g = g') (loadFile (some content') c) (loadFile (some content) c)) ∧
    (∀ edges, edgesOf (recordsOf content) = edges.map fileEdge →
      (∀ edge ∈ edges, edge.1 < nodeCount ∧ edge.2.1 < nodeCount) →
      c.aggregation = .none → c.bufferSize = defaultBufferSize →
      Run.Matches Graph.Alike (loadFile (some content) c)
        (Graph.ofEdges nodeCount edges c.orientation c.concurrency)) := by
  have parsed := parsesAll parses
  have direct := loadsDirectly (c := c) parsed header
  refine ⟨direct, fun content' edited => loadsEdited parsed header edited,
    fun edges same inside plain size => ?_⟩
  refine direct.trans ?_
  rw [recordsOf] at same
  rw [same]
  -- Without edges the graph of the file has no weights; the other one has, but nowhere to show them.
  by_cases any : edges = []
  · subst any
    exact noEdgesMatch plain size
  · refine (edgesMatch any plain size inside).imp ?_
    rintro g _ rfl
    exact Graph.Alike.refl g

def sampleFile : List UInt8 := "t 3 2\ne 0 1 2\n# note\ne 2 1 1".toUTF8.data.toList

def sampleEdited : List UInt8 := "t 3 2\r\n \ne 0 1 2\ne 2 1 1".toUTF8.data.toList

theorem sampleEdits : Edited (Text.pieces 10 sampleFile) (Text.pieces 10 sampleEdited) := by
  let line (text : String) : List UInt8 := text.toUTF8.data.toList
  have lines : Text.pieces 10 sampleFile =
      [line "t 3 2", line "e 0 1 2", line "# note", line "e 2 1 1"] := by decide +kernel
  have lines' : Text.pieces 10 sampleEdited =
      [line "t 3 2" ++ [13], line " ", line "e 0 1 2", line "e 2 1 1"] := by decide +kernel
  have blank : GraphRecord.Idle (line " ") :=
    .blank (show Text.utf8? (line " ") = some [' '] by decide +kernel) (by simp [Text.isBlank])
  have comment : GraphRecord.Idle (line "# note") :=
    .comment (show Text.utf8? (line "# note") = some "# note".toList by decide +kernel)
      (show Text.words "# note".toList = ['#'] :: [['n', 'o', 't', 'e']] by decide +kernel) rfl
  rw [lines, lines']
  exact .head .returned (.head (.further (.inserted blank))
    (.single (.further (.further (.further (.deleted comment))))))

theorem sampleBuilds :
    (recordsOf sampleFile).findSome? GraphRecord.counts? = some (3, 2) ∧
    Run.Matches (fun g g' => g = g') (loadFile (some sampleFile) .default)
      (builtDirectly .default 3 [(0, 1, some 2.0), (2, 1, some 1.0)]) ∧
    ((builtDirectly .default 3 [(0, 1, some 2.0), (2, 1, some 1.0)] .always .empty).1.toOption.map
      fun g => g.network.rows.toList) = some [[(1, 2.0)], [], [(1, 1.0)]] ∧
    Run.Matches (fun g g' => g = g') (loadFile (some sampleEdited) .default)
      (loadFile (some sampleFile) .default) ∧
    Run.Matches Graph.Alike (loadFile (some sampleFile) .default)
      (Graph.ofEdges 3 [(0, 1, 2.0), (2, 1, 1.0)] .natural 4) := by
  have header : (recordsOf sampleFile).findSome? GraphRecord.counts? = some (3, 2) := by
    decide +kernel
  have edges : edgesOf (recordsOf sampleFile) = [(0, 1, some 2.0), (2, 1, some 1.0)] := by
    decide +kernel
  obtain ⟨built, edited, given⟩ := headedBuilds (by decide +kernel) header .default
  rw [edges] at built
  exact ⟨header, built, by decide +kernel, edited _ sampleEdits,
    given [(0, 1, 2.0), (2, 1, 1.0)] edges (by decide) rfl rfl⟩

end Results
end GraphFile
end CommunityGraph
