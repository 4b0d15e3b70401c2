import CommunityGraph.Settings.Scalar

/-! Settings as a tree of scalars, lists and mappings. A node that is used in several places is
counted, so that reading stays within a limit; readers see the node itself. -/
namespace CommunityGraph.Settings

inductive Node where
  | absent
  | scalar (s : Scalar)
  | list (tag : Option String) (items : List Node)
  | mapping (tag : Option String) (entries : List (Node × Node))
  /-- Another use of a node; reading it follows `follows` references, this one included. -/
  | shared (follows : Nat) (node : Node)
  | endless
  deriving Repr

namespace Node

def plain (text : List Char) : Node := .scalar ⟨.plain, none, text⟩

def quoted (text : List Char) : Node := .scalar ⟨.doubleQuoted, none, text⟩

mutual

def follows : Node → Nat
  | .absent | .scalar _ | .endless => 0
  | .list _ items => followsAll items
  | .mapping _ entries => followsEntries entries
  | .shared follows _ => follows

def followsAll : List Node → Nat
  | [] => 0
  | item :: items => item.follows + followsAll items

def followsEntries : List (Node × Node) → Nat
  | [] => 0
  | (key, value) :: entries => key.follows + value.follows + followsEntries entries

end

def target : Node → Node
  | .shared _ node => node.target
  | node => node

def scalar? (node : Node) : Option Scalar :=
  match node.target with
  | .scalar s => some s
  | _ => none

/-- Nothing at all: it also stands for a list or a mapping without elements. -/
def isEmpty (node : Node) : Bool :=
  match node.target with
  | .absent => true
  | .scalar s => s.isEmpty
  | _ => false

def null? (node : Node) : Option Bool :=
  match node.target with
  | .absent => some true
  | .scalar s => s.null?
  | _ => some false

def text? (node : Node) : Option String := node.scalar?.map Scalar.string

def choice? (node : Node) : Option String := node.scalar?.bind Scalar.choice?

def flag? (node : Node) : Option Bool := node.scalar?.bind Scalar.flag?

def word? (node : Node) : Option Nat := node.scalar?.bind Scalar.word?

def double? (node : Node) : Option Float := node.scalar?.bind Scalar.double?

def items? (node : Node) : Option (List Node) :=
  match node.target with
  | .list _ items => some items
  | node => if node.isEmpty then some [] else none

def entries? (node : Node) : Option (List (Node × Node)) :=
  match node.target with
  | .mapping _ entries => some entries
  | node => if node.isEmpty then some [] else none

end Node
end CommunityGraph.Settings
