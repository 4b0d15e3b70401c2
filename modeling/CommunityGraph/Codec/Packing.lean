import CommunityGraph.Arithmetic

/-! Bit packing of word lists. A block holds up to 64 words: one byte with the bit width of the
widest word, then the words at that width, low bits first, as whole bytes. -/
namespace CommunityGraph.Packing

def blockSize : Nat := 64

def blocks {α : Type} (values : List α) : List (List α) :=
  match values with
  | [] => []
  | v :: vs => (v :: vs).take blockSize :: blocks ((v :: vs).drop blockSize)
termination_by values.length
decreasing_by simp only [blockSize, List.length_drop, List.length_cons]; omega

def blockWidth (block : List UInt64) : Nat := bitLength (block.foldl (· ||| ·) 0).toNat

def payloadLength (count width : Nat) : Nat := ceilDiv (count * width) 8

def packedLength (values : List UInt64) : Nat :=
  ((blocks values).map fun block =>
    1 + payloadLength block.length (blockWidth block)).foldl (· + ·) 0

def lowByte (buffer : BitVec 128) : UInt8 := UInt8.ofBitVec (buffer.setWidth 8)

def drain (buffer : BitVec 128) (buffered : Nat) : List UInt8 × BitVec 128 × Nat :=
  if 8 ≤ buffered then
    let later := drain (buffer >>> 8) (buffered - 8)
    (lowByte buffer :: later.1, later.2)
  else ([], buffer, buffered)
termination_by buffered

def packWords (width : Nat) (buffer : BitVec 128) (buffered : Nat) : List UInt64 → List UInt8
  | [] => if 0 < buffered then [lowByte buffer] else []
  | word :: words =>
      let (bytes, buffer, buffered) :=
        drain (buffer ||| word.toBitVec.setWidth 128 <<< buffered) (buffered + width)
      bytes ++ packWords width buffer buffered words

def packBlock (block : List UInt64) : List UInt8 :=
  let width := blockWidth block
  UInt8.ofNat width :: if width = 0 then [] else packWords width 0 0 block

def pack (values : List UInt64) : List UInt8 := (blocks values).flatMap packBlock

def mask (width : Nat) : UInt64 :=
  if width = 64 then UInt64.ofNat (UInt64.size - 1) else (1 <<< UInt64.ofNat width) - 1

def fill (bytes : Array UInt8) (width position : Nat) (buffer : BitVec 128) (buffered : Nat) :
    Option (Nat × BitVec 128 × Nat) :=
  if buffered < width then
    match bytes[position]? with
    | none => none
    | some byte =>
        fill bytes width (position + 1) (buffer ||| byte.toBitVec.setWidth 128 <<< buffered)
          (buffered + 8)
  else some (position, buffer, buffered)
termination_by width - buffered

def unpackWords (bytes : Array UInt8) (width position : Nat) (buffer : BitVec 128)
    (buffered : Nat) : Nat → Option (List UInt64 × Nat)
  | 0 => some ([], position)
  | count + 1 =>
      match fill bytes width position buffer buffered with
      | none => none
      | some (position, buffer, buffered) =>
          match unpackWords bytes width position (buffer >>> width) (buffered - width) count with
          | none => none
          | some (words, stop) =>
              some ((UInt64.ofBitVec (buffer.setWidth 64) &&& mask width) :: words, stop)

def unpackBlock (bytes : Array UInt8) (position count : Nat) : Option (List UInt64 × Nat) :=
  match bytes[position]? with
  | none => none
  | some width =>
      if width = 0 then some (List.replicate count 0, position + 1)
      else unpackWords bytes width.toNat (position + 1) 0 0 count

def unpack (bytes : Array UInt8) (position count : Nat) :
    Option (List UInt64 × List Nat) :=
  if count = 0 then some ([], [])
  else
    match unpackBlock bytes position (min count blockSize) with
    | none => none
    | some (values, stop) =>
        match unpack bytes stop (count - min count blockSize) with
        | none => none
        | some (rest, stops) => some (values ++ rest, stop :: stops)
termination_by count
decreasing_by simp only [blockSize]; omega

end CommunityGraph.Packing
