import CommunityGraph.Registry
import CommunityGraph.Settings.Reading
import CommunityGraph.Settings.Tree.Grammar

/-! Settings and results as typed values. Every field that is left out has its usual value; a field
given twice is refused, and in settings an unknown field as well. -/
namespace CommunityGraph.Settings

def Node.aggregation? (node : Node) : Option Aggregation := node.choice?.bind Aggregation.ofName?

def Node.orientation? (node : Node) : Option Orientation := node.choice?.bind Orientation.ofName?

def engineShape : Shape :=
  ⟨["concurrency", "min_batch_size", "local_buffer_size", "show_progress"], true, true⟩

def engineOf? (fields : Fields Node) : Option EngineConfig := do
  let usual := EngineConfig.default
  let concurrency ← fields.getD "concurrency" Node.word? usual.concurrency
  let minBatchSize ← fields.getD "min_batch_size" Node.word? usual.minBatchSize
  let localBufferSize ← fields.getD "local_buffer_size" Node.word? usual.localBufferSize
  let showProgress ← fields.getD "show_progress" Node.flag? usual.showProgress
  some ⟨concurrency, minBatchSize, localBufferSize, showProgress⟩

def louvainShape : Shape :=
  ⟨["tolerance", "max_iterations", "max_local_iterations", "concurrency", "min_batch_size",
    "consecutive_ids", "include_intermediate_communities", "coloring"], true, true⟩

def givenLouvain? {ν : Type} (r : Reading ν) (fields : Fields ν) :
    Option (LouvainConfig Float) := do
  let usual := LouvainConfig.default
  let tolerance ← fields.getD "tolerance" r.double? usual.tolerance
  let maxIterations ← fields.getD "max_iterations" r.word? usual.maxIterations
  let maxLocal ← fields.getD "max_local_iterations" r.word? usual.maxLocalIterations
  let concurrency ← fields.getD "concurrency" r.word? usual.concurrency
  let minBatchSize ← fields.getD "min_batch_size" r.word? usual.minBatchSize
  let consecutiveIds ← fields.getD "consecutive_ids" r.flag? usual.consecutiveIds
  let intermediate ← fields.getD "include_intermediate_communities" r.flag?
    usual.includeIntermediate
  let coloring ← fields.getD "coloring" r.coloring? usual.coloring
  some ⟨tolerance, maxIterations, maxLocal, concurrency, minBatchSize, consecutiveIds,
    intermediate, coloring⟩

def louvainOf? {ν : Type} (r : Reading ν) (fields : Fields ν) : Option (LouvainConfig Float) :=
  (givenLouvain? r fields).bind fun config =>
    match config.validate with
    | .ok () => some config
    | .error _ => none

def componentsShape : Shape := ⟨["thread_num", "min_batch_size"], true, true⟩

def componentsOf? {ν : Type} (r : Reading ν) (fields : Fields ν) : Option ComponentsConfig := do
  let usual := ComponentsConfig.default
  let threadCount ← fields.getD "thread_num" r.word? usual.threadCount
  let minBatchSize ← fields.getD "min_batch_size" r.word? usual.minBatchSize
  some ⟨threadCount, minBatchSize⟩

def propertyShape : Shape := ⟨["key", "aggregation", "default_value"], true, false⟩

def propertyOf? (fields : Fields Node) : Option (PropertyConfig Float) := do
  let key ← fields.get "key" Node.text?
  let aggregation ← fields.getD "aggregation" (written.optional? Node.aggregation?) none
  let defaultValue ← fields.getD "default_value" Node.double? Weight.one
  some ⟨key, aggregation, defaultValue⟩

def Node.property? (node : Node) : Option (PropertyConfig Float) :=
  (propertyShape.fields? node).bind propertyOf?

def builderShape : Shape :=
  ⟨["orientation", "aggregation", "properties", "index_inverse", "skip_dangling", "concurrency",
    "buffer_size"], true, true⟩

def builderOf? (property : Node → Option (PropertyConfig Float)) (fields : Fields Node) :
    Option (BuilderConfig Float) := do
  let usual : BuilderConfig Float := .default
  let orientation ← fields.getD "orientation" Node.orientation? usual.orientation
  let aggregation ← fields.getD "aggregation" Node.aggregation? usual.aggregation
  let properties ← fields.getD "properties" (written.list? property) usual.properties
  let indexInverse ← fields.getD "index_inverse" Node.flag? usual.indexInverse
  let skipDangling ← fields.getD "skip_dangling" Node.flag? usual.skipDangling
  let concurrency ← fields.getD "concurrency" Node.word? usual.concurrency
  let bufferSize ← fields.getD "buffer_size" Node.word? usual.bufferSize
  some ⟨orientation, aggregation, properties, indexInverse, skipDangling, concurrency, bufferSize⟩

def graphFileShape : Shape :=
  ⟨["orientation", "aggregation", "skip_dangling", "concurrency", "buffer_size", "show_progress"],
    true, true⟩

def graphFileOf? (fields : Fields Node) : Option LoaderConfig := do
  let usual := LoaderConfig.default
  let orientation ← fields.getD "orientation" Node.orientation? usual.orientation
  let aggregation ← fields.getD "aggregation" Node.aggregation? usual.aggregation
  let skipDangling ← fields.getD "skip_dangling" Node.flag? usual.skipDangling
  let concurrency ← fields.getD "concurrency" Node.word? usual.concurrency
  let bufferSize ← fields.getD "buffer_size" Node.word? usual.bufferSize
  let showProgress ← fields.getD "show_progress" Node.flag? usual.showProgress
  some ⟨orientation, aggregation, skipDangling, concurrency, bufferSize, showProgress⟩

def Node.ofAlgorithm? (node : Node) : Option (Algorithm × Value) := do
  let (kind, rest) ← node.tagged? "algorithm" depthLimit
  if kind.isText Algorithm.louvain.name then some (.louvain, rest)
  else if kind.isText Algorithm.wcc.name then some (.wcc, rest)
  else none

def Node.algorithmConfig? (node : Node) : Option AlgorithmConfig := do
  match ← node.ofAlgorithm? with
  | (.louvain, rest) => do
      let fields ← louvainShape.resolvedFields? rest
      let config ← louvainOf? resolved fields
      some (.louvain config)
  | (.wcc, rest) => do
      let fields ← componentsShape.resolvedFields? rest
      let config ← componentsOf? resolved fields
      some (.wcc config)

def memoryRangeShape : Shape := ⟨["min", "max"], false, false⟩

def memoryRangeOf? (fields : Fields Node) : Option MemoryRange := do
  let least ← fields.get "min" Node.word?
  let greatest ← fields.get "max" Node.word?
  some ⟨least, greatest⟩

def louvainResultShape : Shape :=
  ⟨["communities", "modularities", "modularity", "ran_levels", "did_converge",
    "intermediate_communities"], false, false⟩

def louvainResultOf? {ν : Type} (r : Reading ν) (fields : Fields ν) :
    Option (LouvainResult Float) := do
  let labels? := r.list? r.word?
  let communities ← fields.get "communities" labels?
  let modularities ← fields.get "modularities" (r.list? r.double?)
  let modularity ← fields.get "modularity" r.double?
  let ranLevels ← fields.get "ran_levels" r.word?
  let didConverge ← fields.get "did_converge" r.flag?
  let intermediate ← fields.getD "intermediate_communities" (r.optional? (r.list? labels?)) none
  some ⟨communities, modularities, modularity, ranLevels, didConverge, intermediate⟩

def componentsResultShape : Shape := ⟨["component_ids", "component_count"], false, false⟩

def componentsResultOf? {ν : Type} (r : Reading ν) (fields : Fields ν) :
    Option ComponentsResult := do
  let ids ← fields.get "component_ids" (r.list? r.word?)
  let count ← fields.get "component_count" r.word?
  some ⟨ids, count⟩

def Node.algorithmResult? (node : Node) : Option AlgorithmResult := do
  match ← node.ofAlgorithm? with
  | (.louvain, rest) => do
      let fields ← louvainResultShape.resolvedFields? rest
      let result ← louvainResultOf? resolved fields
      some (.louvain result)
  | (.wcc, rest) => do
      let fields ← componentsResultShape.resolvedFields? rest
      let result ← componentsResultOf? resolved fields
      some (.wcc result)

def Document.read? {α : Type} (d : Document) (read : Node → Option α) : Option α :=
  if d.root.follows ≤ d.limit then read d.root else none

def decode {α : Type} (read : Node → Option α) (text : List Char) : Except EngineError α :=
  match (Document.ofText? text).bind fun d => d.read? read with
  | none => .error .malformedSettings
  | some value => .ok value

def decodeFields {α : Type} (shape : Shape) (read : Fields Node → Option α) (text : List Char) :
    Except EngineError α :=
  match (Document.ofText? text).bind fun d =>
      { d with root := shape.pruned d.root }.read? fun node =>
        (shape.fields? node).bind read with
  | none => .error .malformedSettings
  | some value => .ok value

def engine (text : List Char) : Except EngineError EngineConfig := do
  let config ← decodeFields engineShape engineOf? text
  config.validate

def engineFile (content : Option (List UInt8)) : Except EngineError EngineConfig :=
  match content.bind Text.utf8? with
  | none => .error .unreadable
  | some text => engine text

end CommunityGraph.Settings
