import CommunityGraph.Description.Settings
import CommunityGraph.Settings.Decode

/-! Documents by kind: a document is read, checked, and shown with every usual value filled in. -/
namespace CommunityGraph

inductive DocumentKind where
  | engine
  | louvain
  | wcc
  | builder
  | property
  | graphFile
  | algorithm
  | aggregation
  | orientation
  | coloring
  | memoryRange
  | louvainResult
  | wccResult
  | algorithmResult
  deriving DecidableEq, Repr

namespace DocumentKind

def name : DocumentKind → String
  | engine => "engine"
  | louvain => "louvain"
  | wcc => "wcc"
  | builder => "builder"
  | property => "property"
  | graphFile => "graph_file"
  | algorithm => "algorithm"
  | aggregation => "aggregation"
  | orientation => "orientation"
  | coloring => "coloring"
  | memoryRange => "memory_range"
  | louvainResult => "louvain_result"
  | wccResult => "wcc_result"
  | algorithmResult => "algorithm_result"

def all : List DocumentKind :=
  [engine, louvain, wcc, builder, property, graphFile, algorithm, aggregation, orientation,
    coloring, memoryRange, louvainResult, wccResult, algorithmResult]

def ofName? (text : String) : Option DocumentKind := all.find? fun k => k.name = text

open Settings in
def complete (kind : DocumentKind) (text : List Char) : Except EngineError Datum :=
  match kind with
  | engine => (Settings.engine text).map EngineConfig.datum
  | louvain => (decodeFields louvainShape (louvainOf? written) text).map fun c => .fields c.entries
  | wcc =>
      (decodeFields componentsShape (componentsOf? written) text).map fun c => .fields c.entries
  | builder => (decodeFields builderShape (builderOf? Node.property?) text).map BuilderConfig.datum
  | property => (decodeFields propertyShape propertyOf? text).map PropertyConfig.datum
  | graphFile => (decodeFields graphFileShape graphFileOf? text).map LoaderConfig.datum
  | algorithm => (decode Node.algorithmConfig? text).map AlgorithmConfig.datum
  | aggregation => (decode Node.aggregation? text).map fun a => .text a.name
  | orientation => (decode Node.orientation? text).map fun o => .text o.name
  | coloring => (decode Node.coloring? text).map Coloring.datum
  | memoryRange =>
      (decodeFields memoryRangeShape memoryRangeOf? text).map fun r => .fields r.entries
  | louvainResult =>
      (decodeFields louvainResultShape (louvainResultOf? written) text).map fun r =>
        .fields r.entries
  | wccResult =>
      (decodeFields componentsResultShape (componentsResultOf? written) text).map fun r =>
        .fields r.entries
  | algorithmResult => (decode Node.algorithmResult? text).map AlgorithmResult.datum

end DocumentKind
end CommunityGraph
