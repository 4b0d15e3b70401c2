import CommunityGraph.Arithmetic

/-! Double-precision numbers as exact rationals: the value of a bit pattern, and the nearest
pattern to a quotient of naturals. Everything is exact arithmetic on naturals. -/
namespace CommunityGraph.Binary64

structure Magnitude where
  significand : Nat
  exponent : Int
  deriving DecidableEq, Repr

def hiddenBit : Nat := 0x10000000000000

def signBit : Nat := 0x8000000000000000

def infinityBits : Nat := 0x7ff * hiddenBit

def quietNanBits : Nat := 0x7ff * hiddenBit + hiddenBit / 2

def magnitude (bits : Nat) : Magnitude :=
  let fraction : Nat := bits % hiddenBit
  let field : Nat := bits / hiddenBit % 0x800
  if field = 0 then ⟨fraction, -1074⟩ else ⟨hiddenBit + fraction, (field : Int) - 1075⟩

/-- The pattern nearest to `num / den`, a half going to the even neighbour; too large a value
becomes infinity. `den` is positive. -/
def nearest (num den : Nat) : Nat :=
  if num = 0 then 0
  else
    let scaled (e : Int) : Nat × Nat := (num * Nat.pow 2 (-e).toNat, den * Nat.pow 2 e.toNat)
    let first : Int := (num.log2 : Int) - den.log2 - 52
    let e := if (scaled first).1 / (scaled first).2 < hiddenBit then first - 1 else first
    let e := max e (-1074)
    let (top, bottom) := scaled e
    let quotient := top / bottom
    let rest := top % bottom
    let rounded :=
      if 2 * rest < bottom then quotient
      else if bottom < 2 * rest then quotient + 1
      else quotient + quotient % 2
    min ((e + 1074).toNat * hiddenBit + rounded) infinityBits

/-- The pattern nearest to `significand * 10 ^ exponent`. Exponents far outside the range are
decided by the number of digits alone. -/
def nearestDecimal (significand : Nat) (exponent : Int) : Nat :=
  let size : Int := exponent + (Nat.toDigits 10 significand).length
  if significand = 0 ∨ size < -330 then 0
  else if 330 < size then infinityBits
  else nearest (significand * Nat.pow 10 exponent.toNat) (Nat.pow 10 (-exponent).toNat)

def withSign (negative : Bool) (bits : Nat) : Float :=
  Float.ofBits (UInt64.ofNat (if negative then bits + signBit else bits))

end CommunityGraph.Binary64
