import Std.Data.HashMap

/-! External node ids and the dense internal ids behind them. -/
namespace CommunityGraph

/-- Ids listed in the order of their internal ids. An id listed twice counts at its last place. -/
structure IdTable where
  externals : Array Int
  places : Std.HashMap Int Nat

namespace IdTable

def placesFrom (places : Std.HashMap Int Nat) : Nat → List Int → Std.HashMap Int Nat
  | _, [] => places
  | place, id :: ids => placesFrom (places.insert id place) (place + 1) ids

def ofList (externals : List Int) : IdTable := ⟨externals.toArray, placesFrom ∅ 0 externals⟩

def dedupSorted : List Int → List Int
  | [] => []
  | [a] => [a]
  | a :: b :: rest => if a = b then dedupSorted (b :: rest) else a :: dedupSorted (b :: rest)

def collect (ids : List Int) : IdTable :=
  ofList (dedupSorted (ids.mergeSort fun a b => a ≤ b))

def nodeCount (t : IdTable) : Nat := t.externals.size

def mapped? (t : IdTable) (external : Int) : Option Nat := t.places[external]?

def external? (t : IdTable) (node : Nat) : Option Int := t.externals[node]?

end IdTable

inductive IdMap where
  | direct (nodeCount : Nat)
  | table (ids : IdTable)

namespace IdMap

def nodeCount : IdMap → Nat
  | direct n => n
  | table ids => ids.nodeCount

def mapped? : IdMap → Int → Option Nat
  | direct n, external => if 0 ≤ external ∧ external < n then some external.toNat else none
  | table ids, external => ids.mapped? external

def table? : IdMap → Option IdTable
  | direct _ => none
  | table ids => some ids

end IdMap
end CommunityGraph
