import CommunityGraph.Decimal.Binary64

/-! The fewest decimal digits that read back to a given double, and of those the nearest. Digits
are searched on ever finer grids of powers of ten inside the interval that rounds to the double. -/
namespace CommunityGraph.Decimal
open Binary64 (Magnitude)

structure Scaled where
  digits : Nat
  exponent : Int
  deriving DecidableEq, Repr

structure Interval where
  low : Nat
  value : Nat
  high : Nat
  closed : Bool

def Interval.of (m : Magnitude) : Interval :=
  let gap := if m.significand = Binary64.hiddenBit ∧ -1074 < m.exponent then 1 else 2
  ⟨4 * m.significand - gap, 4 * m.significand, 4 * m.significand + 2, m.significand % 2 = 0⟩

def Interval.contains (i : Interval) (scale point : Nat) : Bool :=
  if i.closed then i.low * scale ≤ point && point ≤ i.high * scale
  else i.low * scale < point && point < i.high * scale

def onGrid (i : Interval) (unit exponent : Int) : Option Nat :=
  let scale := Nat.pow 2 unit.toNat * Nat.pow 10 (-exponent).toNat
  let grid := Nat.pow 10 exponent.toNat * Nat.pow 2 (-unit).toNat
  let value := i.value * scale
  let below := value / grid
  let lower := i.contains scale (below * grid)
  let upper := i.contains scale ((below + 1) * grid)
  if lower && upper then
    if value - below * grid < (below + 1) * grid - value then some below else some (below + 1)
  else if lower then some below
  else if upper then some (below + 1)
  else none

def searchGrids (i : Interval) (unit : Int) : Nat → Int → Scaled
  | 0, exponent => ⟨i.value * Nat.pow 2 unit.toNat * Nat.pow 10 (-exponent).toNat /
      (Nat.pow 10 exponent.toNat * Nat.pow 2 (-unit).toNat), exponent⟩
  | fuel + 1, exponent =>
      match onGrid i unit exponent with
      | some digits => ⟨digits, exponent⟩
      | none => searchGrids i unit fuel (exponent - 1)

/-- The shortest decimal of a positive magnitude. Nineteen grids below its leading digit are
enough, as seventeen digits always suffice. -/
def shortest (m : Magnitude) : Scaled :=
  let leading := (m.significand.log2 + m.exponent + 1) * 30103 / 100000 + 1
  searchGrids (.of m) (m.exponent - 2) 24 leading

def paddedDigits (width n : Nat) : String :=
  let text := toString n
  "".pushn '0' (width - text.length) ++ text

def Scaled.positional (d : Scaled) : String :=
  if 0 ≤ d.exponent then toString (d.digits * Nat.pow 10 d.exponent.toNat)
  else
    let places := (-d.exponent).toNat
    toString (d.digits / Nat.pow 10 places) ++ "." ++
      paddedDigits places (d.digits % Nat.pow 10 places)

def text (x : Float) : String :=
  let bits := x.toBits.toNat
  if x.isNaN then "NaN"
  else
    let sign := if Binary64.signBit ≤ bits then "-" else ""
    if x.isInf then sign ++ "inf"
    else
      let m := Binary64.magnitude (bits % Binary64.signBit)
      sign ++ (if m.significand = 0 then "0" else (shortest m).positional)

def fixedText (places : Nat) (x : Float) : String :=
  let bits := x.toBits.toNat
  if x.isNaN then "NaN"
  else
    let sign := if Binary64.signBit ≤ bits then "-" else ""
    if x.isInf then sign ++ "inf"
    else
      let m := Binary64.magnitude (bits % Binary64.signBit)
      let top := m.significand * Nat.pow 2 m.exponent.toNat * Nat.pow 10 places
      let bottom := Nat.pow 2 (-m.exponent).toNat
      let rest := top % bottom
      let units :=
        if 2 * rest < bottom then top / bottom
        else if bottom < 2 * rest then top / bottom + 1
        else top / bottom + top / bottom % 2
      sign ++ (if places = 0 then toString units
        else toString (units / Nat.pow 10 places) ++ "." ++
          paddedDigits places (units % Nat.pow 10 places))

end CommunityGraph.Decimal
