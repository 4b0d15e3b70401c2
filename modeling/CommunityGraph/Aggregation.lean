import CommunityGraph.Error
import CommunityGraph.Weight

/-! What becomes of parallel relationships: they are kept, or folded into one value. -/
namespace CommunityGraph

inductive Aggregation where
  | none
  | sum
  | min
  | max
  | single
  deriving DecidableEq, Repr

namespace Aggregation

def name : Aggregation → String
  | none => "NONE"
  | sum => "SUM"
  | min => "MIN"
  | max => "MAX"
  | single => "SINGLE"

def all : List Aggregation := [none, sum, min, max, single]

def ofName? (text : String) : Option Aggregation := all.find? fun a => a.name = text

def folds (a : Aggregation) : Bool := a ≠ none

def merge {α : Type} [Weight α] : Aggregation → α → α → α
  | sum, current, value => current + value
  | min, current, value => Weight.least current value
  | max, current, value => Weight.greatest current value
  | none, current, _ => current
  | single, current, _ => current

def fold? {α : Type} [Weight α] (a : Aggregation) : List α → Option α
  | [] => Option.none
  | v :: vs => some (vs.foldl a.merge v)

end Aggregation

def requireUniform (keys : List String) (aggregations : List Aggregation) :
    Except EngineError Unit :=
  let folding := aggregations.countP Aggregation.folds
  if folding = 0 ∨ folding = aggregations.length then .ok ()
  else
    let described := (keys.zip aggregations).map fun (key, a) => key ++ ": " ++ a.name
    .error (.aggregationMismatch
      ("NONE cannot be combined with other aggregations (" ++ joinItems described ++ ")"))

structure PropertyLayout where
  keys : List String
  aggregations : List Aggregation
  topology : Aggregation
  deriving DecidableEq, Repr

namespace PropertyLayout

def ofTopology (a : Aggregation) : PropertyLayout := ⟨[], [], a⟩

def make (keys : List String) (aggregations : List Aggregation) (topology : Aggregation) :
    Except EngineError PropertyLayout :=
  if keys.length ≠ aggregations.length then
    .error (.invalidConfiguration "aggregations"
      ("expected " ++ toString keys.length ++ " aggregations, got " ++
        toString aggregations.length))
  else
    match requireUniform keys aggregations with
    | .error e => .error e
    | .ok () => .ok ⟨keys, aggregations, topology⟩

def propertyCount (layout : PropertyLayout) : Nat := layout.keys.length

def folds (layout : PropertyLayout) : Bool :=
  match layout.aggregations with
  | [] => layout.topology.folds
  | a :: _ => a.folds

def blamedKey (layout : PropertyLayout) (actual : Nat) : String :=
  (layout.keys[actual]? <|> layout.keys.getLast?).getD ""

end PropertyLayout
end CommunityGraph
