/-! Variable-length numbers for targets in arrival order: signed differences are folded onto the
naturals by zigzag, then written seven bits a byte, lowest first. -/
namespace CommunityGraph.Varlong

def zigzag : Int → Nat
  | .ofNat n => 2 * n
  | .negSucc n => 2 * n + 1

def unzigzag (n : Nat) : Int :=
  if n % 2 = 0 then .ofNat (n / 2) else .negSucc (n / 2)

def encode (n : Nat) : List UInt8 :=
  if n < 128 then [UInt8.ofNat n] else UInt8.ofNat (n % 128 + 128) :: encode (n / 128)
termination_by n
decreasing_by omega

def decode : List UInt8 → Option (Nat × List UInt8)
  | [] => none
  | b :: rest =>
      if b.toNat < 128 then some (b.toNat, rest)
      else
        match decode rest with
        | none => none
        | some (high, after) => some (b.toNat - 128 + 128 * high, after)

/-- The word at the start of `bytes`: a number that is too large keeps its low 64 bits. -/
def decodeWord (bytes : List UInt8) : Option (UInt64 × List UInt8) :=
  (decode bytes).map fun (n, rest) => (UInt64.ofNat n, rest)

def decodeWords : Nat → List UInt8 → Option (List UInt64 × List UInt8)
  | 0, bytes => some ([], bytes)
  | count + 1, bytes =>
      match decodeWord bytes with
      | none => none
      | some (word, rest) =>
          match decodeWords count rest with
          | none => none
          | some (words, after) => some (word :: words, after)

def step (previous target : UInt64) : Int := (target - previous).toInt64.toInt

def encodeDeltas (previous : UInt64) : List UInt64 → List UInt8
  | [] => []
  | target :: targets => encode (zigzag (step previous target)) ++ encodeDeltas target targets

def lastTarget (previous : UInt64) : List UInt64 → UInt64
  | [] => previous
  | target :: targets => lastTarget target targets

def encodeChunks (previous : UInt64) : List (List UInt64) → List UInt8 × List UInt64
  | [] => ([], [])
  | chunk :: chunks =>
      let last := lastTarget previous chunk
      match encodeChunks last chunks with
      | (bytes, lasts) => (encodeDeltas previous chunk ++ bytes, last :: lasts)

def decodeDeltas (previous : UInt64) : Nat → List UInt8 → Option (List UInt64)
  | 0, _ => some []
  | count + 1, bytes =>
      match decodeWord bytes with
      | none => none
      | some (word, rest) =>
          let target := previous + UInt64.ofInt (unzigzag word.toNat)
          match decodeDeltas target count rest with
          | none => none
          | some targets => some (target :: targets)

end CommunityGraph.Varlong
