import CommunityGraph.Decimal.Literal
import CommunityGraph.Error
import CommunityGraph.Text.Blank

/-! Lines of a graph file: a header with counts, vertices, edges with or without a weight, and
lines to skip. -/
namespace CommunityGraph

inductive GraphRecord where
  | header (nodeCount edgeCount : Nat)
  | vertex (id : Int)
  | edge (source target : Int) (weight : Option Float)
  | skip

namespace GraphRecord

def field {α : Type} (read : List Char → Option α) (line : Nat) (what : String) :
    List (List Char) → Except EngineError (α × List (List Char))
  | [] => .error (.parse line ("missing " ++ what))
  | word :: rest =>
      match read word with
      | none => .error (.parse line ("invalid " ++ what ++ " '" ++ String.ofList word ++ "'"))
      | some value => .ok (value, rest)

def isComment (word : List Char) : Bool :=
  match word with
  | '#' :: _ => true
  | '%' :: _ => true
  | _ => false

def ofWords (line : Nat) : List (List Char) → Except EngineError GraphRecord
  | [] => .ok .skip
  | tag :: rest =>
      if isComment tag then .ok .skip
      else if tag = ['t'] then do
        let (nodes, rest) ← field Literal.word? line "node count" rest
        let (edges, _) ← field Literal.word? line "edge count" rest
        .ok (.header nodes edges)
      else if tag = ['v'] then do
        let (id, _) ← field Literal.signed? line "vertex id" rest
        .ok (.vertex id)
      else if tag = ['e'] then do
        let (source, rest) ← field Literal.signed? line "source id" rest
        let (target, rest) ← field Literal.signed? line "target id" rest
        match rest with
        | [] => .ok (.edge source target none)
        | _ => do
            let (weight, _) ← field Literal.double? line "weight" rest
            .ok (.edge source target (some weight))
      else .error (.parse line ("unknown line type '" ++ String.ofList tag ++ "'"))

def ofLine (line : Nat) (bytes : List UInt8) : Except EngineError GraphRecord :=
  match Text.utf8? bytes with
  | none => .error (.parse line "not valid UTF-8")
  | some text => ofWords line (Text.words text)

def ids : GraphRecord → List Int
  | vertex id => [id]
  | edge source target _ => [source, target]
  | _ => []

def isWeightedEdge : GraphRecord → Bool
  | edge _ _ (some _) => true
  | _ => false

def counts? : GraphRecord → Option (Nat × Nat)
  | header nodes edges => some (nodes, edges)
  | _ => none

end GraphRecord
end CommunityGraph
