import CommunityGraph.Relationships

/-! Settings of a relationships builder and what is checked about them. -/
namespace CommunityGraph

structure PropertyConfig (α : Type) where
  key : String
  aggregation : Option Aggregation
  defaultValue : α
  deriving DecidableEq, Repr

structure BuilderConfig (α : Type) where
  orientation : Orientation
  aggregation : Aggregation
  properties : List (PropertyConfig α)
  indexInverse : Bool
  skipDangling : Bool
  concurrency : Nat
  bufferSize : Nat
  deriving DecidableEq, Repr

def defaultConcurrency : Nat := 4

def defaultBufferSize : Nat := 10000

def weightKey : String := "weight"

namespace BuilderConfig
variable {α : Type}

def default : BuilderConfig α :=
  ⟨.natural, .none, [], false, false, defaultConcurrency, defaultBufferSize⟩

def repeatedKey? (seen : List String) : List String → Option String
  | [] => none
  | key :: keys => if key ∈ seen then some key else repeatedKey? (key :: seen) keys

def keys (c : BuilderConfig α) : List String := c.properties.map PropertyConfig.key

def aggregations (c : BuilderConfig α) : List Aggregation :=
  c.properties.map fun p => p.aggregation.getD c.aggregation

def defaults (c : BuilderConfig α) : List α := c.properties.map PropertyConfig.defaultValue

def layout (c : BuilderConfig α) : Except EngineError PropertyLayout := do
  requirePositive "concurrency" c.concurrency
  requirePositive "buffer_size" c.bufferSize
  if c.indexInverse ∧ c.orientation = .undirected then
    .error (.invalidConfiguration "index_inverse"
      "undirected relationships cannot be inverse indexed")
  match repeatedKey? [] c.keys with
  | some key =>
      .error (.invalidConfiguration "properties" ("property '" ++ key ++ "' is declared twice"))
  | none => PropertyLayout.make c.keys c.aggregations c.aggregation

end BuilderConfig

def PropertyConfig.weight {α : Type} [Weight α] : PropertyConfig α :=
  ⟨weightKey, none, Weight.one⟩

end CommunityGraph
