import CommunityGraph.Decimal.Binary64

/-! Reading numbers from tokens: whole numbers with an optional sign, and decimal fractions with an
optional exponent. Only ASCII digits count. -/
namespace CommunityGraph.Literal

def digitValue (c : Char) : Nat := c.toNat - '0'.toNat

def natural? (cs : List Char) : Option Nat :=
  if cs.isEmpty || !cs.all Char.isDigit then none
  else some (cs.foldl (fun n c => 10 * n + digitValue c) 0)

def word? (token : List Char) : Option Nat :=
  let digits := match token with
    | '+' :: rest => rest
    | rest => rest
  (natural? digits).bind fun n => if n < UInt64.size then some n else none

def signed? (token : List Char) : Option Int :=
  let value : Option Int := match token with
    | '+' :: rest => (natural? rest).map Int.ofNat
    | '-' :: rest => (natural? rest).map fun n => -(n : Int)
    | rest => (natural? rest).map Int.ofNat
  value.bind fun z => if Int64.minValue.toInt ≤ z ∧ z ≤ Int64.maxValue.toInt then some z else none

def exponent? : List Char → Option Int
  | [] => some 0
  | c :: rest =>
      if c = 'e' ∨ c = 'E' then
        match rest with
        | '+' :: digits => (natural? digits).map Int.ofNat
        | '-' :: digits => (natural? digits).map fun n => -(n : Int)
        | digits => (natural? digits).map Int.ofNat
      else none

def decimal? (cs : List Char) : Option (Nat × Int) :=
  let whole := cs.takeWhile Char.isDigit
  let after := cs.dropWhile Char.isDigit
  let (fraction, tail) := match after with
    | '.' :: rest => (rest.takeWhile Char.isDigit, rest.dropWhile Char.isDigit)
    | rest => ([], rest)
  match natural? (whole ++ fraction), exponent? tail with
  | some significand, some e => some (significand, e - fraction.length)
  | _, _ => none

def decimalMagnitude? (cs : List Char) : Option Nat :=
  (decimal? cs).map fun (significand, e) => Binary64.nearestDecimal significand e

def magnitude? (cs : List Char) : Option Nat :=
  let word := String.ofList (cs.map Char.toLower)
  if word = "inf" ∨ word = "infinity" then some Binary64.infinityBits
  else if word = "nan" then some Binary64.quietNanBits
  else decimalMagnitude? cs

def double? (token : List Char) : Option Float :=
  match token with
  | '+' :: rest => (magnitude? rest).map (Binary64.withSign false)
  | '-' :: rest => (magnitude? rest).map (Binary64.withSign true)
  | rest => (magnitude? rest).map (Binary64.withSign false)

end CommunityGraph.Literal
