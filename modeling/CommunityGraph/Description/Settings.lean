import CommunityGraph.Datum
import CommunityGraph.Registry

/-! Settings and results as data, field by field under the names that the settings reader knows. -/
namespace CommunityGraph

def EngineConfig.datum (c : EngineConfig) : Datum :=
  .fields [("concurrency", .nat c.concurrency), ("min_batch_size", .nat c.minBatchSize),
    ("local_buffer_size", .nat c.localBufferSize), ("show_progress", .flag c.showProgress)]

def Coloring.datum : Coloring → Datum
  | greedy => .fields [("type", .text "greedy")]
  | randomOrder seed => .fields [("type", .text "random_order"), ("seed", .nat seed.toNat)]

def LouvainConfig.entries (c : LouvainConfig Float) : List (String × Datum) :=
  [("tolerance", .finite c.tolerance), ("max_iterations", .nat c.maxIterations),
    ("max_local_iterations", .nat c.maxLocalIterations), ("concurrency", .nat c.concurrency),
    ("min_batch_size", .nat c.minBatchSize), ("consecutive_ids", .flag c.consecutiveIds),
    ("include_intermediate_communities", .flag c.includeIntermediate),
    ("coloring", c.coloring.datum)]

def ComponentsConfig.entries (c : ComponentsConfig) : List (String × Datum) :=
  [("thread_num", .nat c.threadCount), ("min_batch_size", .nat c.minBatchSize)]

def AlgorithmConfig.datum (c : AlgorithmConfig) : Datum :=
  .fields (("algorithm", .text c.kind) :: match c with
    | .louvain c => c.entries
    | .wcc c => c.entries)

def PropertyConfig.datum (p : PropertyConfig Float) : Datum :=
  .fields [("key", .text p.key), ("aggregation", .option (fun a => .text a.name) p.aggregation),
    ("default_value", .finite p.defaultValue)]

def BuilderConfig.datum (c : BuilderConfig Float) : Datum :=
  .fields [("orientation", .text c.orientation.name), ("aggregation", .text c.aggregation.name),
    ("properties", .list (c.properties.map PropertyConfig.datum)),
    ("index_inverse", .flag c.indexInverse), ("skip_dangling", .flag c.skipDangling),
    ("concurrency", .nat c.concurrency), ("buffer_size", .nat c.bufferSize)]

def LoaderConfig.datum (c : LoaderConfig) : Datum :=
  .fields [("orientation", .text c.orientation.name), ("aggregation", .text c.aggregation.name),
    ("skip_dangling", .flag c.skipDangling), ("concurrency", .nat c.concurrency),
    ("buffer_size", .nat c.bufferSize), ("show_progress", .flag c.showProgress)]

def MemoryRange.entries (r : MemoryRange) : List (String × Datum) :=
  [("min", .nat r.min), ("max", .nat r.max)]

def LouvainResult.entries (r : LouvainResult Float) : List (String × Datum) :=
  [("communities", .nats r.communities), ("modularities", .list (r.modularities.map .finite)),
    ("modularity", .finite r.modularity), ("ran_levels", .nat r.ranLevels),
    ("did_converge", .flag r.didConverge),
    ("intermediate_communities", .option (fun s => .list (s.map .nats)) r.intermediate)]

def ComponentsResult.entries (r : ComponentsResult) : List (String × Datum) :=
  [("component_ids", .nats r.ids), ("component_count", .nat r.count)]

def AlgorithmResult.kind : AlgorithmResult → String
  | louvain _ => Algorithm.louvain.name
  | wcc _ => Algorithm.wcc.name

def AlgorithmResult.datum (r : AlgorithmResult) : Datum :=
  .fields (("algorithm", .text r.kind) :: match r with
    | .louvain r => r.entries
    | .wcc r => r.entries)

end CommunityGraph
