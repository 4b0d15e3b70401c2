import CommunityGraph.Settings.Node

/-! Values whose kinds are decided by their looks, before their use is known. This is how a value is
kept whose use depends on a tag inside of it. -/
namespace CommunityGraph.Settings

inductive Value where
  | unit
  | flag (value : Bool)
  | natural (n : Nat)
  | negative (z : Int)
  | double (x : Float)
  | text (s : String)
  | list (items : List Value)
  | mapping (entries : List (Value × Value))
  deriving Repr

namespace Value

/-- A whole number that fits 64 bits. Beyond them there is no reading, unless the number is too long
even for 128 bits: then it is not taken for a whole number. -/
def ofInteger? (text : List Char) (z : Int) (otherwise : Option Value) : Option Value :=
  if text.head? = some '-' then
    if Int64.minValue.toInt ≤ z then some (.negative z)
    else if -Nat.pow 2 127 ≤ z then none
    else otherwise
  else if z < UInt64.size then some (.natural z.toNat)
  else if z < Nat.pow 2 128 then none
  else otherwise

def ofWord? (text : List Char) : Option Value :=
  if text.isEmpty || Word.isNull text then some .unit
  else
    match Word.flag? text with
    | some b => some (.flag b)
    | none =>
        let other : Value :=
          match Word.leadingZero text, Word.double? text with
          | false, some x => .double x
          | _, _ => .text (String.ofList text)
        match Word.integer? text with
        | some z => ofInteger? text z (some other)
        | none => some other

def ofScalar? (s : Scalar) : Option Value :=
  match s.tag with
  | none => if s.style = .plain then ofWord? s.text else some (.text s.string)
  | some tag =>
      if s.variant?.isSome then none
      else if tag = Scalar.coreTag "bool" then (Word.flag? s.text).map .flag
      else if tag = Scalar.coreTag "int" then
        (Word.integer? s.text).bind fun z => ofInteger? s.text z none
      else if tag = Scalar.coreTag "float" then (Word.double? s.text).map .double
      else if tag = Scalar.coreTag "null" then if Word.isNull s.text then some .unit else none
      else some (.text s.string)

mutual

def ofNode? (depth : Nat) : Node → Option Value
  | .absent | .endless => none
  | .scalar s => ofScalar? s
  | .shared _ node => ofNode? depth node
  | .list tag items =>
      if (Scalar.variantOf? tag).isSome || depth = 0 then none
      else (ofNodes? (depth - 1) items).map .list
  | .mapping tag entries =>
      if (Scalar.variantOf? tag).isSome || depth = 0 then none
      else (ofEntries? (depth - 1) entries).map .mapping

def ofNodes? (depth : Nat) : List Node → Option (List Value)
  | [] => some []
  | node :: nodes => do
      let value ← ofNode? depth node
      let values ← ofNodes? depth nodes
      some (value :: values)

def ofEntries? (depth : Nat) : List (Node × Node) → Option (List (Value × Value))
  | [] => some []
  | (key, node) :: entries => do
      let key ← ofNode? depth key
      let value ← ofNode? depth node
      let rest ← ofEntries? depth entries
      some ((key, value) :: rest)

end

def nearestDouble (z : Int) : Float :=
  Binary64.withSign (z < 0) (Binary64.nearest z.natAbs 1)

def flag? : Value → Option Bool
  | .flag b => some b
  | _ => none

def word? : Value → Option Nat
  | .natural n => some n
  | .negative z => if z = 0 then some 0 else none
  | _ => none

def double? : Value → Option Float
  | .double x => some x
  | .natural n => some (nearestDouble n)
  | .negative z => some (nearestDouble z)
  | _ => none

def items? : Value → Option (List Value)
  | .list items => some items
  | _ => none

def isUnit : Value → Bool
  | .unit => true
  | _ => false

def isText (name : String) : Value → Bool
  | .text s => s = name
  | _ => false

def nameIn? (known : List String) : Value → Option String
  | .text name => some name
  | .natural place => known[place]?
  | _ => none

end Value
end CommunityGraph.Settings
