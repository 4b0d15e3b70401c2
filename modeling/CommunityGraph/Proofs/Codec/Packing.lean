import Mathlib.Order.Bounds.Basic
import Mathlib.Tactic.Ring
import CommunityGraph.Proofs.Codec.Streaming
import CommunityGraph.Proofs.Storage.Segment

/-! A packed block is read back from wherever it lies on a page, and so is a whole list, block after
block. The words of a block are the digits of its payload, once in base `2 ^ width` and once in bytes. -/
namespace CommunityGraph

theorem ofDigitsDigits {base count value : Nat} (fits : value < base ^ count) :
    ofDigits base (digits base count value) = value := by
  induction count generalizing value with
  | zero => simp at fits; simp [digits, ofDigits, fits]
  | succ count ih =>
    have high : value / base < base ^ count :=
      Nat.div_lt_of_lt_mul (by rwa [Nat.pow_succ, Nat.mul_comm] at fits)
    simp only [digits, ofDigits, ih high]
    exact Nat.mod_add_div value base

theorem digitsBound {base : Nat} (positive : 0 < base) (count value : Nat) :
    ∀ d ∈ digits base count value, d < base := by
  induction count generalizing value with
  | zero => simp [digits]
  | succ count ih =>
    intro d hd
    rcases List.mem_cons.mp hd with same | inside
    · subst d; exact Nat.mod_lt _ positive
    · exact ih _ d inside

theorem bitLengthBound {value width : Nat} (small : value < 2 ^ width) :
    bitLength value ≤ width := by
  unfold bitLength
  split
  · exact Nat.zero_le _
  · rename_i nonzero
    exact (Nat.log2_lt nonzero).mpr small

namespace Packing

theorem orFits (words : List UInt64) (start : UInt64) (width : Nat) :
    (words.foldl (· ||| ·) start).toNat < 2 ^ width ↔
      start.toNat < 2 ^ width ∧ ∀ word ∈ words, word.toNat < 2 ^ width := by
  induction words generalizing start with
  | nil => simp
  | cons word words ih =>
    rw [List.foldl_cons, ih, UInt64.toNat_or, List.forall_mem_cons, ← and_assoc]
    exact and_congr_left' ⟨fun both => ⟨lt_of_le_of_lt Nat.left_le_or both,
      lt_of_le_of_lt Nat.right_le_or both⟩, fun ⟨left, right⟩ => Nat.or_lt_two_pow left right⟩

theorem wordFits {block : List UInt64} {word : UInt64} (member : word ∈ block) :
    word.toNat < 2 ^ blockWidth block :=
  ((orFits block 0 _).mp (lt_two_pow_bitLength _)).2 word member

theorem blockWidthLeast (block : List UInt64) :
    IsLeast {width | ∀ word ∈ block, word.toNat < 2 ^ width} (blockWidth block) :=
  ⟨fun _ member => wordFits member, fun width fits =>
    bitLengthBound ((orFits block 0 width).mpr ⟨Nat.two_pow_pos width, fits⟩)⟩

theorem blockWidthBound (block : List UInt64) : blockWidth block ≤ 64 :=
  (blockWidthLeast block).2 fun word _ => word.toNat_lt

theorem blockWidthByte (block : List UInt64) :
    (UInt8.ofNat (blockWidth block)).toNat = blockWidth block :=
  UInt8.toNat_ofNat_of_lt' (lt_of_le_of_lt (blockWidthBound block) (by decide))

def payload (block : List UInt64) : Nat := ofDigits (2 ^ blockWidth block) (block.map UInt64.toNat)

theorem payloadFits (block : List UInt64) :
    payload block < 256 ^ payloadLength block.length (blockWidth block) := by
  have digit : ∀ d ∈ block.map UInt64.toNat, d < 2 ^ blockWidth block := by
    intro d hd
    obtain ⟨word, member, rfl⟩ := List.mem_map.mp hd
    exact wordFits member
  have eight : 0 < 8 := by norm_num
  have bits := leMulCeilDiv (block.length * blockWidth block) eight
  calc payload block < (2 ^ blockWidth block) ^ (block.map UInt64.toNat).length :=
        ofDigitsBound digit
    _ = 2 ^ (block.length * blockWidth block) := by
        rw [List.length_map, ← Nat.pow_mul, Nat.mul_comm]
    _ ≤ 2 ^ (8 * payloadLength block.length (blockWidth block)) :=
        Nat.pow_le_pow_right (by norm_num) bits
    _ = 256 ^ payloadLength block.length (blockWidth block) := by rw [Nat.pow_mul]

theorem packBlockEq (block : List UInt64) :
    packBlock block = UInt8.ofNat (blockWidth block) ::
      (digits 256 (payloadLength block.length (blockWidth block)) (payload block)).map
        UInt8.ofNat := by
  rw [packBlock]
  split
  · rename_i zero
    have none : payloadLength block.length 0 = 0 := by simp [payloadLength, ceilDiv]
    rw [zero, none]
    rfl
  · have empty : (0 : BitVec 128).toNat = 0 := rfl
    rw [packWordsDigits (fun _ member => wordFits member) (by decide) (by decide), empty,
      Nat.pow_zero, Nat.one_mul, Nat.zero_add, Nat.zero_add]
    rfl

@[simp] theorem packBlockLength (block : List UInt64) :
    (packBlock block).length = 1 + payloadLength block.length (blockWidth block) := by
  simp [packBlockEq, Nat.add_comm]

theorem bytesToNat {ds : List Nat} (bytes : ∀ d ∈ ds, d < 256) :
    (ds.map UInt8.ofNat).map UInt8.toNat = ds := by
  rw [List.map_map]
  exact List.map_congr_left (fun d hd => UInt8.toNat_ofNat_of_lt' (bytes d hd)) |>.trans
    (List.map_id' ds)

theorem wordsOfNat (block : List UInt64) : (block.map UInt64.toNat).map UInt64.ofNat = block := by
  simp [Function.comp_def]

theorem unpackBlockPackBlock {page : Array UInt8} {position : Nat} {block : List UInt64}
    (placed : Segment page position (packBlock block)) :
    unpackBlock page position block.length =
      some (block, position + (packBlock block).length) := by
  have width := blockWidthByte block
  have fits := placed.fits
  rw [packBlockLength, ← Nat.add_assoc] at fits
  rw [packBlockEq] at placed
  have bytes : (page.toList.drop (position + 1)).take
      (payloadLength block.length (blockWidth block)) =
      (digits 256 (payloadLength block.length (blockWidth block)) (payload block)).map
        UInt8.ofNat := by
    rw [← List.singleton_append] at placed
    simpa [List.extract_eq_take_drop] using placed.right.extracted
  have number : number page (position + 1) (payloadLength block.length (blockWidth block)) =
      payload block := by
    rw [number, bytes, bytesToNat (digitsBound (by norm_num) _ _)]
    exact ofDigitsDigits (payloadFits block)
  have words : digits (2 ^ blockWidth block) block.length (payload block) =
      block.map UInt64.toNat := by
    have small : ∀ d ∈ block.map UInt64.toNat, d < 2 ^ blockWidth block := by
      simpa using fun word member => wordFits member
    have exact := digits_ofDigits small
    rwa [List.length_map] at exact
  rw [unpackBlockDigits placed.head (width.le.trans (blockWidthBound block)), width, if_pos fits, number,
    words, wordsOfNat, packBlockLength, Nat.add_assoc]

theorem blocksCons (v : UInt64) (vs : List UInt64) :
    blocks (v :: vs) = (v :: vs).take blockSize :: blocks ((v :: vs).drop blockSize) := by
  rw [blocks]

theorem packSplit {values : List UInt64} (nonempty : values ≠ []) :
    pack values = packBlock (values.take blockSize) ++ pack (values.drop blockSize) := by
  obtain ⟨v, vs, rfl⟩ := List.exists_cons_of_ne_nil nonempty
  simp [pack, blocksCons]

theorem packLength (values : List UInt64) : (pack values).length ≤ 9 * values.length := by
  by_cases empty : values = []
  · simp [empty, pack, blocks]
  · have rest := packLength (values.drop blockSize)
    have any := List.length_pos_iff.mpr empty
    have width := blockWidthBound (values.take blockSize)
    have bits : (values.take blockSize).length * blockWidth (values.take blockSize) ≤
        (values.take blockSize).length * 64 := Nat.mul_le_mul_left _ width
    rw [packSplit empty, List.length_append, packBlockLength, payloadLength, ceilDiv]
    rw [List.length_take] at bits ⊢
    rw [List.length_drop] at rest
    unfold blockSize at *
    omega
termination_by values.length
decreasing_by
  have any := List.length_pos_iff.mpr empty
  simp only [blockSize, List.length_drop]
  omega

theorem packedLengthExact (values : List UInt64) : (pack values).length = packedLength values := by
  rw [pack, packedLength, List.length_flatMap, List.sum_eq_foldl]
  simp only [packBlockLength]

theorem blocksFlatten (values : List UInt64) : (blocks values).flatten = values := by
  induction values using blocks.induct with
  | case1 => simp [blocks]
  | case2 v vs ih => rw [blocksCons, List.flatten_cons, ih, List.take_append_drop]

theorem blocksSized (values : List UInt64) :
    ∀ block ∈ blocks values, 0 < block.length ∧ block.length ≤ blockSize := by
  induction values using blocks.induct with
  | case1 => simp [blocks]
  | case2 v vs ih =>
    intro block member
    rw [blocksCons] at member
    rcases List.mem_cons.mp member with rfl | later
    · rw [List.length_take, List.length_cons]
      unfold blockSize
      omega
    · exact ih block later

theorem blocksFull (values : List UInt64) :
    ∀ block ∈ (blocks values).dropLast, block.length = blockSize := by
  induction values using blocks.induct with
  | case1 => simp [blocks]
  | case2 v vs ih =>
    intro block member
    rw [blocksCons] at member
    -- With a block behind it, the first one had at least 64 words to take.
    cases rest : blocks ((v :: vs).drop blockSize) with
    | nil => simp [rest] at member
    | cons next later =>
      rw [rest, List.dropLast_cons_cons] at member
      rw [rest] at ih
      rcases List.mem_cons.mp member with rfl | further
      · have more : (v :: vs).drop blockSize ≠ [] := by
          intro none
          rw [none] at rest
          simp [blocks] at rest
        have long := List.length_pos_iff.mpr more
        rw [List.length_drop] at long
        rw [List.length_take]
        omega
      · exact ih block further

def ends (position : Nat) (blocks : List (List UInt64)) : List Nat :=
  (List.range blocks.length).map fun k =>
    position + ((blocks.take (k + 1)).flatMap packBlock).length

theorem endsCons (position : Nat) (block : List UInt64) (later : List (List UInt64)) :
    ends position (block :: later) =
      (position + (packBlock block).length) ::
        ends (position + (packBlock block).length) later := by
  have first : ((block :: later).take 1).flatMap packBlock = packBlock block := by simp
  rw [ends, List.length_cons, List.range_succ_eq_map, List.map_cons, List.map_map, first]
  congr 1
  refine List.map_congr_left fun k _ => ?_
  rw [Function.comp_apply, Nat.succ_eq_add_one, List.take_succ_cons, List.flatMap_cons,
    List.length_append, Nat.add_assoc]

theorem endsLast (position : Nat) (blocks : List (List UInt64)) :
    (ends position blocks).getLastD position = position + (blocks.flatMap packBlock).length := by
  induction blocks generalizing position with
  | nil => rfl
  | cons block later ih =>
    rw [endsCons, List.getLastD_cons, ih, List.flatMap_cons, List.length_append, Nat.add_assoc]

theorem unpackPack {page : Array UInt8} {position : Nat} {values : List UInt64}
    (placed : Segment page position (pack values)) :
    unpack page position values.length = some (values, ends position (blocks values)) := by
  induction values using blocks.induct generalizing position with
  | case1 =>
    rw [unpack, blocks]
    rfl
  | case2 v vs ih =>
    have count : min (v :: vs).length blockSize = ((v :: vs).take blockSize).length := by
      rw [List.length_take, Nat.min_comm]
    have left : (v :: vs).length - ((v :: vs).take blockSize).length =
        ((v :: vs).drop blockSize).length := by
      rw [List.length_take, List.length_drop]
      omega
    rw [packSplit (by simp)] at placed
    rw [unpack, if_neg (by simp), count, unpackBlockPackBlock placed.left]
    dsimp only
    rw [left, ih placed.right, blocksCons, endsCons]
    simp only [List.take_append_drop]

/-- A block that is packed behind some bytes: its header is the least width that its words fit into,
and reading it ends where the block does, whatever follows. -/
structure ReadsBehind (before : List UInt8) (block : List UInt64) : Prop where
  header : ∃ width, (packBlock block).head? = some width ∧ width.toNat ≤ 64 ∧
    IsLeast {width : Nat | ∀ word ∈ block, word.toNat < 2 ^ width} width.toNat
  read : ∀ after, unpackBlock (before ++ packBlock block ++ after).toArray before.length
    block.length = some (block, (before ++ packBlock block).length)

theorem readsBehind (before : List UInt8) (block : List UInt64) : ReadsBehind before block where
  header := by
    refine ⟨UInt8.ofNat (blockWidth block), rfl, ?_⟩
    rw [blockWidthByte]
    exact ⟨blockWidthBound block, blockWidthLeast block⟩
  read after := by
    rw [List.length_append]
    exact unpackBlockPackBlock ⟨before, after, rfl, rfl⟩

/-- Packing adds as many bytes as announced; the words are read back from them, block after block, with
any bytes before and behind. -/
theorem packingReadsBack (values : List UInt64) (before after : List UInt8) :
    (pack values).length = packedLength values ∧
    ((blocks values).flatten = values ∧
      (∀ block ∈ (blocks values).dropLast, block.length = blockSize) ∧
      ∀ block ∈ blocks values, 0 < block.length ∧ block.length ≤ blockSize) ∧
    unpack (before ++ pack values ++ after).toArray before.length values.length =
      some (values, ends before.length (blocks values)) ∧
    (ends before.length (blocks values)).getLastD before.length = (before ++ pack values).length ∧
    ∀ earlier block later, blocks values = earlier ++ block :: later →
      pack values = earlier.flatMap packBlock ++ packBlock block ++ later.flatMap packBlock ∧
        ReadsBehind (before ++ earlier.flatMap packBlock) block := by
  refine ⟨packedLengthExact values, ⟨blocksFlatten values, blocksFull values, blocksSized values⟩,
    unpackPack ⟨before, after, rfl, rfl⟩, ?_, fun earlier block later split => ⟨?_, readsBehind _ _⟩⟩
  · rw [endsLast, List.length_append]
    rfl
  · rw [pack, split, List.flatMap_append, List.flatMap_cons, List.append_assoc]

def sampleWords : List UInt64 := List.replicate 64 0 ++ [5, 9223372036854775808]

theorem sampleReadsBack :
    blocks sampleWords = [List.replicate 64 0] ++ [5, 9223372036854775808] :: [] ∧
    unpack ([7] ++ pack sampleWords ++ [255]).toArray 1 66 = some (sampleWords, [2, 19]) ∧
    ReadsBehind ([7] ++ [0]) [5, 9223372036854775808] := by
  have split : blocks sampleWords = [List.replicate 64 0] ++ [5, 9223372036854775808] :: [] := by
    decide +kernel
  obtain ⟨-, -, unpacked, -, reads⟩ := packingReadsBack sampleWords [7] [255]
  have stops : ends [(7 : UInt8)].length (blocks sampleWords) = [2, 19] := by decide +kernel
  have zeros : [List.replicate 64 (0 : UInt64)].flatMap packBlock = [0] := by decide +kernel
  rw [stops] at unpacked
  have behind := (reads _ _ _ split).2
  rw [zeros] at behind
  exact ⟨split, unpacked, behind⟩

end Packing
end CommunityGraph
