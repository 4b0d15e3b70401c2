import CommunityGraph.Decimal.Double
import CommunityGraph.Graph
import CommunityGraph.Graph.Record

/-! Loading a graph file: all lines are read first, then the edges are added in line order. With a
header the ids are internal ids; without one the ids in the file are numbered in ascending order. -/
namespace CommunityGraph

structure LoaderConfig where
  orientation : Orientation
  aggregation : Aggregation
  skipDangling : Bool
  concurrency : Nat
  bufferSize : Nat
  showProgress : Bool
  deriving DecidableEq, Repr

namespace LoaderConfig

def default : LoaderConfig :=
  ⟨.natural, .none, false, defaultConcurrency, defaultBufferSize, false⟩

def builder (c : LoaderConfig) (weighted : Bool) : BuilderConfig Float :=
  { orientation := c.orientation
    aggregation := c.aggregation
    properties := if weighted then [.weight] else []
    indexInverse := false
    skipDangling := c.skipDangling
    concurrency := c.concurrency
    bufferSize := c.bufferSize }

end LoaderConfig

namespace GraphFile

def readLines : Nat → List (List UInt8) → Run (List GraphRecord)
  | _, [] => Run.pure []
  | number, line :: lines => fun t j =>
      let j := j.note (.progress 1)
      match GraphRecord.ofLine number line with
      | .error e => (.error e, j)
      | .ok record =>
          match readLines (number + 1) lines t j with
          | (.error e, j) => (.error e, j)
          | (.ok records, j) => (.ok (record :: records), j)

def addRecord (record : GraphRecord) (b : Builder Float) :
    Except EngineError Unit × Builder Float :=
  match record with
  | .edge source target (some weight) => b.addValue source target weight
  | .edge source target none => b.add source target
  | _ => (.ok (), b)

def idMap (records : List GraphRecord) : IdMap :=
  match records.findSome? GraphRecord.counts? with
  | some (nodes, _) => .direct nodes
  | none => .table (.collect (records.flatMap GraphRecord.ids))

def announced (c : LoaderConfig) (records : List GraphRecord) : Option Nat :=
  (records.findSome? GraphRecord.counts?).map fun (_, edges) =>
    if c.orientation = .undirected then edges * 2 % UInt64.size else edges

def addAndBuild (m : Machine) (records : List GraphRecord) (builder : Builder Float) :
    Run (Relationships Float) :=
  match Builder.addEach addRecord records builder with
  | (.error e, _) => Run.fail e
  | (.ok (), builder) => do
      let relationships ← builder.buildOn m
      Run.note (.progress records.length)
      pure relationships

def compareHeader (c : LoaderConfig) (records : List GraphRecord) (actual : Nat) : Run Unit :=
  match announced c records with
  | none => Run.pure ()
  | some expected =>
      if c.aggregation = .none ∧ actual ≠ expected then
        Run.log .warn "relationship count differs from the graph header"
          [("expected", toString expected), ("actual", toString actual)]
      else Run.pure ()

def load (m : Machine) (content : List UInt8) (c : LoaderConfig) : Run (Graph Float) := do
  let lines := Text.pieces 10 content
  let records ← Run.phase "Parse" lines.length (readLines 1 lines)
  Run.assertRunning
  let map := idMap records
  let config := c.builder (records.any GraphRecord.isWeightedEdge)
  let builder ← Run.ofExcept (Builder.make map config m)
  let relationships ← Run.phase "Build" records.length (addAndBuild m records builder)
  let graph : Graph Float := ⟨relationships, map.table?⟩
  compareHeader c records graph.relationshipCount
  Run.log .info "graph loaded" []
  pure graph

def loadFileOn (m : Machine) (content : Option (List UInt8)) (c : LoaderConfig) :
    Run (Graph Float) :=
  match content with
  | none => Run.fail .unreadable
  | some bytes => load m bytes c

def loadFile (content : Option (List UInt8)) (c : LoaderConfig) : Run (Graph Float) :=
  loadFileOn .ample content c

end GraphFile
end CommunityGraph
