import CommunityGraph.Components
import CommunityGraph.EngineConfig
import CommunityGraph.Graph.Loader
import CommunityGraph.Louvain
import CommunityGraph.Progress.Tracker
import CommunityGraph.Registry.MemoryRange

/-! Algorithms by name, with their settings, estimates, tasks and results. -/
namespace CommunityGraph

inductive Algorithm where
  | louvain
  | wcc
  deriving DecidableEq, Repr

def Algorithm.name : Algorithm → String
  | louvain => "louvain"
  | wcc => "wcc"

def Algorithm.all : List Algorithm := [.louvain, .wcc]

def Algorithm.ofName? (text : String) : Option Algorithm := all.find? fun a => a.name = text

inductive AlgorithmConfig where
  | louvain (c : LouvainConfig Float)
  | wcc (c : ComponentsConfig)

def AlgorithmConfig.kind : AlgorithmConfig → String
  | louvain _ => Algorithm.louvain.name
  | wcc _ => Algorithm.wcc.name

inductive AlgorithmResult where
  | louvain (r : LouvainResult Float)
  | wcc (r : ComponentsResult)

def AlgorithmResult.nodeLabels : AlgorithmResult → List Nat
  | louvain r => r.communities
  | wcc r => r.ids

structure RunContext where
  termination : Termination
  showProgress : Bool
  concurrency : Nat

namespace RunContext

def default : RunContext := ⟨.always, false, defaultConcurrency⟩

def ofEngine (c : EngineConfig) : RunContext := ⟨.always, c.showProgress, c.concurrency⟩

end RunContext

def defaultTolerance : Float := Binary64.withSign false (Binary64.nearestDecimal 1 (-4))

namespace LouvainConfig

def default : LouvainConfig Float := .withTolerance defaultTolerance

end LouvainConfig

namespace Algorithm

def mismatch (a : Algorithm) (config : AlgorithmConfig) : EngineError :=
  .configurationKind a.name config.kind

def defaultConfig (a : Algorithm) (context : RunContext) : AlgorithmConfig :=
  match a with
  | louvain =>
      let config := LouvainConfig.default.withConcurrency context.concurrency
      match config.validate with
      | .ok () => .louvain config
      | .error _ => .louvain LouvainConfig.default
  | wcc => .wcc ⟨context.concurrency, ComponentsConfig.default.minBatchSize⟩

def wordBytes : Nat := 8

def setBytes (nodeCount : Nat) : Nat := nodeCount * 2 * wordBytes

def estimateLouvain (nodeCount relationshipCount : Nat) (c : LouvainConfig Float) : MemoryRange :=
  let perNode := setBytes nodeCount + nodeCount * 5 * wordBytes
  let snapshots :=
    if c.includeIntermediate then
      MemoryRange.between (nodeCount * wordBytes) (nodeCount * wordBytes * c.maxIterations)
    else .exactly 0
  let levelGraph := nodeCount * 2 * wordBytes + relationshipCount * 2 * 2 * wordBytes
  (MemoryRange.between perNode (perNode + levelGraph)).add snapshots

def memory (a : Algorithm) (nodeCount relationshipCount : Nat) (config : AlgorithmConfig) :
    Except EngineError MemoryRange :=
  match a, config with
  | louvain, .louvain c => .ok (estimateLouvain nodeCount relationshipCount c)
  | wcc, .wcc _ => .ok (.exactly (setBytes nodeCount + nodeCount * 2 * wordBytes))
  | _, _ => .error (a.mismatch config)

def louvainTask (nodeCount relationshipCount maxIterations : Nat) : Task :=
  .group "Louvain"
    [.leaf "Initialization" nodeCount,
      .iterative "Levels" maxIterations
        [.leaf "Local moving" nodeCount, .leaf "Aggregation" relationshipCount]]

def wccTask (nodeCount : Nat) : Task :=
  .group "WCC" [.leaf "Union" nodeCount, .leaf "Components" nodeCount]

def plannedTask (a : Algorithm) (g : Graph Float) (config : AlgorithmConfig) :
    Except EngineError Task :=
  match a, config with
  | louvain, .louvain c => .ok (louvainTask g.nodeCount g.relationshipCount c.maxIterations)
  | wcc, .wcc _ => .ok (wccTask g.nodeCount)
  | _, _ => .error (a.mismatch config)

def compute (a : Algorithm) (g : Graph Float) (config : AlgorithmConfig) :
    Run AlgorithmResult :=
  match a, config with
  | louvain, .louvain c => do
      let result ← Louvain.compute g c
      pure (.louvain result)
  | wcc, .wcc c => do
      let result ← Components.compute g c
      pure (.wcc result)
  | _, _ => Run.fail (a.mismatch config)

end Algorithm

structure Registry where
  algorithms : List Algorithm
  deriving DecidableEq, Repr

namespace Registry

def empty : Registry := ⟨[]⟩

def register (r : Registry) (a : Algorithm) : Registry :=
  if a ∈ r.algorithms then r else ⟨r.algorithms ++ [a]⟩

def standard : Registry := (empty.register .louvain).register .wcc

def names (r : Registry) : List String :=
  (r.algorithms.map Algorithm.name).mergeSort fun a b => !(b < a)

def get (r : Registry) (name : String) : Except EngineError Algorithm :=
  match r.algorithms.find? fun a => a.name = name.toLower with
  | none => .error (.unknownAlgorithm name)
  | some a => .ok a

def run (r : Registry) (name : String) (g : Graph Float)
    (config : Option AlgorithmConfig) (context : RunContext) : Run AlgorithmResult := do
  let algorithm ← Run.ofExcept (r.get name)
  algorithm.compute g (config.getD (algorithm.defaultConfig context))

end Registry
end CommunityGraph
