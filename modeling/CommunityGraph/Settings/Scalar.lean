import CommunityGraph.Decimal.Literal

/-! Scalars: a text, how it was written, and perhaps a tag. What a scalar stands for is decided by
its words; only plain scalars, and literal ones with the tag of a kind, are more than text. -/
namespace CommunityGraph.Settings

inductive ScalarStyle where
  | plain
  | singleQuoted
  | doubleQuoted
  | literal
  | folded
  deriving DecidableEq, Repr

structure Scalar where
  style : ScalarStyle
  tag : Option String
  text : List Char
  deriving DecidableEq, Repr

namespace Word

def isNull (text : List Char) : Bool := String.ofList text ∈ ["null", "Null", "NULL", "~"]

def flag? (text : List Char) : Option Bool :=
  if String.ofList text ∈ ["true", "True", "TRUE"] then some true
  else if String.ofList text ∈ ["false", "False", "FALSE"] then some false
  else none

def digitOf? (base : Nat) (c : Char) : Option Nat :=
  let value : Option Nat :=
    if c.isDigit then some (c.toNat - '0'.toNat)
    else if 'a' ≤ c ∧ c ≤ 'f' then some (c.toNat - 'a'.toNat + 10)
    else if 'A' ≤ c ∧ c ≤ 'F' then some (c.toNat - 'A'.toNat + 10)
    else none
  value.bind fun d => if d < base then some d else none

def inBase? (base : Nat) (cs : List Char) : Option Nat :=
  if cs.isEmpty then none
  else cs.foldl (fun n c => n.bind fun n => (digitOf? base c).map fun d => base * n + d) (some 0)

def unsigned (text : List Char) : List Char :=
  match text with
  | '+' :: rest => rest
  | rest => rest

def leadingZero (text : List Char) : Bool :=
  let digits := match text with
    | '+' :: rest => rest
    | '-' :: rest => rest
    | rest => rest
  match digits with
  | '0' :: d :: rest => (d :: rest).all Char.isDigit
  | _ => false

def natural? (text : List Char) : Option Nat :=
  match unsigned text with
  | '0' :: 'x' :: rest => inBase? 16 rest
  | '0' :: 'o' :: rest => inBase? 8 rest
  | '0' :: 'b' :: rest => inBase? 2 rest
  | rest => if leadingZero text then none else Literal.natural? rest

def integer? (text : List Char) : Option Int :=
  match text with
  | '-' :: '+' :: _ => none
  | '-' :: rest => (natural? rest).map fun n => -(n : Int)
  | rest => (natural? rest).map Int.ofNat

def double? (text : List Char) : Option Float :=
  let magnitude := unsigned text
  if String.ofList magnitude ∈ [".inf", ".Inf", ".INF"] then
    some (Binary64.withSign false Binary64.infinityBits)
  else if String.ofList text ∈ ["-.inf", "-.Inf", "-.INF"] then
    some (Binary64.withSign true Binary64.infinityBits)
  else if String.ofList text ∈ [".nan", ".NaN", ".NAN"] then
    some (Binary64.withSign false Binary64.quietNanBits)
  else
    match text with
    | '+' :: '+' :: _ => none
    | '+' :: '-' :: _ => none
    | _ => (Literal.double? magnitude).bind fun x => if x.isFinite then some x else none

end Word

namespace Scalar

def empty : Scalar := ⟨.plain, none, []⟩

def coreTag (kind : String) : String := "tag:yaml.org,2002:" ++ kind

def variantOf? (tag : Option String) : Option String :=
  match tag.map String.toList with
  | some ('!' :: name) => some (String.ofList name)
  | _ => none

def variant? (s : Scalar) : Option String := variantOf? s.tag

def isEmpty (s : Scalar) : Bool := s.style = .plain && s.text.isEmpty

def mayBe (s : Scalar) (kind : String) : Bool :=
  s.style = .plain || (s.style = .literal && s.tag = some (coreTag kind))

def string (s : Scalar) : String := String.ofList s.text

def flag? (s : Scalar) : Option Bool := if s.mayBe "bool" then Word.flag? s.text else none

def word? (s : Scalar) : Option Nat :=
  if s.mayBe "int" then
    (Word.natural? s.text).bind fun n => if n < UInt64.size then some n else none
  else none

def double? (s : Scalar) : Option Float := if s.mayBe "float" then Word.double? s.text else none

def null? (s : Scalar) : Option Bool :=
  if s.style ≠ .plain then some false
  else
    match s.tag with
    | none => some (s.text.isEmpty || Word.isNull s.text)
    | some tag =>
        if tag ≠ coreTag "null" then some false
        else if Word.isNull s.text then some true
        else none

def choice? (s : Scalar) : Option String :=
  match s.variant? with
  | none => some s.string
  | some name =>
      if s.style = .plain && (s.text.isEmpty || Word.isNull s.text) then some name else none

end Scalar
end CommunityGraph.Settings
