import CommunityGraph.Coloring
import CommunityGraph.Settings.Shape

/-! Reading values of each basic kind, from nodes as they are written and from resolved values. -/
namespace CommunityGraph.Settings

structure Reading (ν : Type) where
  flag? : ν → Option Bool
  word? : ν → Option Nat
  double? : ν → Option Float
  items? : ν → Option (List ν)
  null? : ν → Option Bool
  coloring? : ν → Option Coloring

namespace Reading
variable {ν α : Type}

def optional? (r : Reading ν) (read : ν → Option α) (value : ν) : Option (Option α) :=
  (r.null? value).bind fun isNull => if isNull then some none else (read value).map some

def list? (r : Reading ν) (read : ν → Option α) (value : ν) : Option (List α) :=
  (r.items? value).bind fun items => items.mapM read

end Reading

def depthLimit : Nat := 128

def splitEntries? (tag : String) (depth : Nat) :
    List (Node × Node) → Option (List String × List (Value × Value))
  | [] => some ([], [])
  | (key, node) :: entries => do
      let key ← Value.ofNode? depth key
      let (kinds, rest) ← splitEntries? tag depth entries
      if key.isText tag then do
        let kind ← node.text?
        some (kind :: kinds, rest)
      else do
        let value ← Value.ofNode? depth node
        some (kinds, (key, value) :: rest)

def Node.tagged? (tag : String) (depth : Nat) (node : Node) : Option (Value × Value) :=
  match node.target with
  | .list t (first :: items) =>
      if (Scalar.variantOf? t).isSome then none
      else do
        let kind ← first.text?
        let items ← Value.ofNodes? (depth - 1) items
        some (.text kind, .list items)
  | .mapping t entries =>
      if (Scalar.variantOf? t).isSome then none
      else
        match splitEntries? tag (depth - 1) entries with
        | some ([kind], rest) => some (.text kind, .mapping rest)
        | _ => none
  | _ => none

def Value.tagged? (tag : String) : Value → Option (Value × Value)
  | .list (kind :: items) => some (kind, .list items)
  | .mapping entries =>
      match entries.partition fun (key, _) => key.isText tag with
      | ([(_, kind)], rest) => some (kind, .mapping rest)
      | _ => none
  | _ => none

def Value.hasNoItems : Value → Bool
  | .mapping _ | .list [] => true
  | _ => false

def coloringTag : String := "type"

def seedShape : Shape := ⟨["seed"], false, false⟩

def coloringOf? (kind rest : Value) : Option Coloring :=
  match kind.nameIn? ["greedy", "random_order"] with
  | none => none
  | some name =>
      if name = "greedy" then if rest.hasNoItems then some .greedy else none
      else if name = "random_order" then do
        let fields ← seedShape.resolvedFields? rest
        let seed ← fields.get "seed" Value.word?
        some (.randomOrder (UInt64.ofNat seed))
      else none

def Node.coloringWithin? (outer : Nat) (node : Node) : Option Coloring :=
  (node.tagged? coloringTag (depthLimit - outer)).bind fun (kind, rest) => coloringOf? kind rest

def Node.coloring? (node : Node) : Option Coloring := node.coloringWithin? 0

def Value.coloring? (value : Value) : Option Coloring :=
  (value.tagged? coloringTag).bind fun (kind, rest) => coloringOf? kind rest

def written : Reading Node where
  flag? := Node.flag?
  word? := Node.word?
  double? := Node.double?
  items? := Node.items?
  null? := Node.null?
  coloring? := Node.coloringWithin? 1

def resolved : Reading Value where
  flag? := Value.flag?
  word? := Value.word?
  double? := Value.double?
  items? := Value.items?
  null? := fun value => some value.isUnit
  coloring? := Value.coloring?

end CommunityGraph.Settings
