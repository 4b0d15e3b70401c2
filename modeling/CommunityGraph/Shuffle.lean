/-! A seeded random order: a stream of 32-bit words from a ChaCha block function with twelve
rounds, and the shuffle that draws its exchanges from it. -/
namespace CommunityGraph

namespace WordStream

def rotateLeft (x : UInt32) (n : UInt32) : UInt32 := (x <<< n) ||| (x >>> (32 - n))

def rotateRight (x : UInt32) (n : UInt32) : UInt32 := (x >>> n) ||| (x <<< (32 - n))

def keyWord (state : UInt64) : UInt32 :=
  let x := (((state >>> 18) ^^^ state) >>> 27).toUInt32
  rotateRight x (state >>> 59).toUInt32

def keyFrom : Nat → UInt64 → List UInt32
  | 0, _ => []
  | count + 1, state =>
      let state := state * 6364136223846793005 + 11634580027462260723
      keyWord state :: keyFrom count state

def keyOfSeed (seed : UInt64) : List UInt32 := keyFrom 8 seed

def quarterRound (a b c d : Nat) (s : Array UInt32) : Array UInt32 :=
  let get (s : Array UInt32) (i : Nat) : UInt32 := s.getD i 0
  let s := s.setIfInBounds a (get s a + get s b)
  let s := s.setIfInBounds d (rotateLeft (get s d ^^^ get s a) 16)
  let s := s.setIfInBounds c (get s c + get s d)
  let s := s.setIfInBounds b (rotateLeft (get s b ^^^ get s c) 12)
  let s := s.setIfInBounds a (get s a + get s b)
  let s := s.setIfInBounds d (rotateLeft (get s d ^^^ get s a) 8)
  let s := s.setIfInBounds c (get s c + get s d)
  s.setIfInBounds b (rotateLeft (get s b ^^^ get s c) 7)

def doubleRound (s : Array UInt32) : Array UInt32 :=
  let s := quarterRound 0 4 8 12 s
  let s := quarterRound 1 5 9 13 s
  let s := quarterRound 2 6 10 14 s
  let s := quarterRound 3 7 11 15 s
  let s := quarterRound 0 5 10 15 s
  let s := quarterRound 1 6 11 12 s
  let s := quarterRound 2 7 8 13 s
  quarterRound 3 4 9 14 s

def rounds : Nat → Array UInt32 → Array UInt32
  | 0, s => s
  | count + 1, s => rounds count (doubleRound s)

def block (key : List UInt32) (counter : UInt64) : List UInt32 :=
  let constants : List UInt32 := [0x61707865, 0x3320646e, 0x79622d32, 0x6b206574]
  let start := constants ++ key ++ [counter.toUInt32, (counter >>> 32).toUInt32, 0, 0]
  start.zipWith (· + ·) (rounds 6 start.toArray).toList

end WordStream

structure WordStream where
  key : List UInt32
  counter : UInt64
  ahead : List UInt32

namespace WordStream

def ofSeed (seed : UInt64) : WordStream := ⟨keyOfSeed seed, 0, []⟩

def next (s : WordStream) : UInt32 × WordStream :=
  match s.ahead with
  | word :: rest => (word, { s with ahead := rest })
  | [] =>
      match block s.key s.counter with
      | [] => (0, s)
      | word :: rest => (word, { s with counter := s.counter + 1, ahead := rest })

def leadingZeros (range : UInt32) : UInt32 := 31 - range.log2

/-- An index below `range`, for a positive `range`: the high half of a product, drawn again while
the low half is in the incomplete last zone. Each draw succeeds at least every other time, so the
number of draws is bounded. -/
def index (range : UInt32) : Nat → WordStream → Nat × WordStream
  | 0, s => (0, s)
  | fuel + 1, s =>
      match s.next with
      | (word, s) =>
          let product := word.toUInt64 * range.toUInt64
          let zone := (range <<< leadingZeros range) - 1
          if product.toUInt32 ≤ zone then ((product >>> 32).toNat, s) else index range fuel s

end WordStream

def exchange (xs : Array Nat) (i j : Nat) : Array Nat :=
  xs.swapIfInBounds i j

def shuffleFrom : Nat → WordStream → Array Nat → Array Nat
  | 0, _, xs => xs
  | i + 1, s, xs =>
      match WordStream.index (UInt32.ofNat (i + 2)) 1024 s with
      | (j, s) => shuffleFrom i s (exchange xs (i + 1) j)

def shuffled (seed : UInt64) (n : Nat) : List Nat :=
  (shuffleFrom (n - 1) (.ofSeed seed) (Array.range n)).toList

end CommunityGraph
