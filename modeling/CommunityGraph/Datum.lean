/-! Plain data: what settings and results look like when they are written down. -/
namespace CommunityGraph

inductive Datum where
  | absent
  | flag (b : Bool)
  | number (n : Int)
  | double (x : Float)
  | text (s : String)
  | list (items : List Datum)
  | fields (entries : List (String × Datum))
  deriving Inhabited

namespace Datum

def nat (n : Nat) : Datum := .number n

def finite (x : Float) : Datum := if x.isFinite then .double x else .absent

def nats (xs : List Nat) : Datum := .list (xs.map .nat)

def option {α : Type} (write : α → Datum) : Option α → Datum
  | none => .absent
  | some a => write a

end Datum
end CommunityGraph
