import Mathlib.Data.Nat.Bitwise
import Mathlib.Tactic.Ring
import CommunityGraph.Codec.Packing

/-! The buffered loops over a block compute with one number, the payload: its digits in base
`2 ^ width` are the words and its digits in base 256 are the bytes. Between two words fewer than 8 bits
are buffered, so that the buffer of 128 bits never drops one. -/
namespace CommunityGraph

theorem ofDigitsBound {base : Nat} {ds : List Nat} (bounded : ∀ d ∈ ds, d < base) :
    ofDigits base ds < base ^ ds.length := by
  induction ds with
  | nil => simp [ofDigits]
  | cons d ds ih =>
    have small : d < base := bounded d (by simp)
    have tail := ih fun x hx => bounded x (by simp [hx])
    calc ofDigits base (d :: ds) = d + base * ofDigits base ds := rfl
      _ < base * (ofDigits base ds + 1) := by rw [Nat.mul_add]; omega
      _ ≤ base * base ^ ds.length := Nat.mul_le_mul_left _ tail
      _ = base ^ (d :: ds).length := by rw [List.length_cons]; ring

theorem ofDigitsAppend (base : Nat) (low high : List Nat) :
    ofDigits base (low ++ high) = ofDigits base low + base ^ low.length * ofDigits base high := by
  induction low with
  | nil => simp [ofDigits]
  | cons d low ih =>
    rw [List.cons_append, ofDigits, ofDigits, ih, List.length_cons, Nat.pow_succ]
    ring

theorem digitsLow {base : Nat} (positive : 0 < base) (count value above : Nat) :
    digits base count (value + base ^ count * above) = digits base count value := by
  induction count generalizing value with
  | zero => rfl
  | succ count ih =>
    have split : value + base ^ (count + 1) * above = value + base * (base ^ count * above) := by
      rw [Nat.pow_succ]
      ring
    rw [digits, digits, split, Nat.add_mul_mod_self_left, Nat.add_mul_div_left _ _ positive, ih]

theorem digitsAppend (base low high value : Nat) :
    digits base (low + high) value =
      digits base low value ++ digits base high (value / base ^ low) := by
  induction low generalizing value with
  | zero => simp [digits]
  | succ low ih =>
    rw [Nat.succ_add, digits, digits, ih, List.cons_append, Nat.div_div_eq_div_mul, Nat.pow_succ,
      Nat.mul_comm base]

namespace Packing

theorem bufferOr {buffer : BitVec 128} {buffered width : Nat} (added : BitVec width)
    (small : buffer.toNat < 2 ^ buffered) (room : buffered + width ≤ 128) :
    (buffer ||| added.setWidth 128 <<< buffered).toNat =
      buffer.toNat + 2 ^ buffered * added.toNat := by
  have fits : 2 ^ buffered * added.toNat < 2 ^ 128 :=
    calc 2 ^ buffered * added.toNat < 2 ^ buffered * 2 ^ width :=
          Nat.mul_lt_mul_of_pos_left added.isLt (Nat.two_pow_pos _)
      _ = 2 ^ (buffered + width) := (Nat.pow_add 2 buffered width).symm
      _ ≤ 2 ^ 128 := Nat.pow_le_pow_right (by decide) room
  have whole : added.toNat < 2 ^ 128 :=
    lt_of_lt_of_le added.isLt (Nat.pow_le_pow_right (by decide) (by omega))
  rw [BitVec.toNat_or, BitVec.toNat_shiftLeft, BitVec.toNat_setWidth, Nat.mod_eq_of_lt whole,
    Nat.shiftLeft_eq, Nat.mul_comm, Nat.mod_eq_of_lt fits, Nat.or_comm,
    ← Nat.two_pow_add_eq_or_of_lt small, Nat.add_comm]

theorem bufferSmall {held added buffered width : Nat} (small : held < 2 ^ buffered)
    (fits : added < 2 ^ width) : held + 2 ^ buffered * added < 2 ^ (buffered + width) :=
  calc held + 2 ^ buffered * added < 2 ^ buffered * (added + 1) := by rw [Nat.mul_succ]; omega
    _ ≤ 2 ^ buffered * 2 ^ width := Nat.mul_le_mul_left _ fits
    _ = 2 ^ (buffered + width) := (Nat.pow_add 2 buffered width).symm

theorem lowByteNat (buffer : BitVec 128) : lowByte buffer = UInt8.ofNat (buffer.toNat % 256) := by
  apply UInt8.toNat_inj.mp
  simp [lowByte, BitVec.toNat_setWidth]

theorem shiftedNat (buffer : BitVec 128) (width : Nat) :
    (buffer >>> width).toNat = buffer.toNat / 2 ^ width := by
  rw [BitVec.toNat_ushiftRight, Nat.shiftRight_eq_div_pow]

theorem bitsSplit (count : Nat) : 2 ^ count = 256 ^ (count / 8) * 2 ^ (count % 8) := by
  rw [show (256 : Nat) = 2 ^ 8 from rfl, ← Nat.pow_mul, ← Nat.pow_add, Nat.div_add_mod]

theorem drainDigits (buffer : BitVec 128) (buffered : Nat) :
    drain buffer buffered = ((digits 256 (buffered / 8) buffer.toNat).map UInt8.ofNat,
      buffer >>> (8 * (buffered / 8)), buffered % 8) := by
  induction buffer, buffered using drain.induct with
  | case1 buffer buffered whole ih =>
    have more : buffered / 8 = (buffered - 8) / 8 + 1 := by omega
    have same : (buffered - 8) % 8 = buffered % 8 := by omega
    rw [drain, if_pos whole, ih, more, digits, List.map_cons, lowByteNat, shiftedNat, same,
      Nat.mul_succ, Nat.add_comm (8 * _), BitVec.shiftRight_add]
    rfl
  | case2 buffer buffered few =>
    have none : buffered / 8 = 0 := by omega
    rw [drain, if_neg few, none, Nat.mod_eq_of_lt (by omega)]
    simp [digits]

theorem drainLeft {buffer : BitVec 128} {buffered : Nat} (small : buffer.toNat < 2 ^ buffered) :
    (buffer >>> (8 * (buffered / 8))).toNat = buffer.toNat / 256 ^ (buffered / 8) ∧
      buffer.toNat / 256 ^ (buffered / 8) < 2 ^ (buffered % 8) := by
  constructor
  · rw [shiftedNat, Nat.pow_mul]
  · rw [bitsSplit buffered] at small
    exact Nat.div_lt_of_lt_mul small

theorem ceilDivBytes (bits more : Nat) :
    ceilDiv (bits + more) 8 = bits / 8 + ceilDiv (bits % 8 + more) 8 := by
  unfold ceilDiv
  omega

theorem ofDigitsNext (held buffered width : Nat) (word : UInt64) (block : List UInt64) :
    held + 2 ^ buffered * ofDigits (2 ^ width) ((word :: block).map UInt64.toNat) =
      (held + 2 ^ buffered * word.toNat) + 256 ^ ((buffered + width) / 8) *
        (2 ^ ((buffered + width) % 8) * ofDigits (2 ^ width) (block.map UInt64.toNat)) := by
  rw [List.map_cons, ofDigits, ← Nat.mul_assoc, ← bitsSplit, Nat.pow_add]
  ring

theorem packWordsDigits {width : Nat} {block : List UInt64}
    (fits : ∀ word ∈ block, word.toNat < 2 ^ width) {buffer : BitVec 128} {buffered : Nat}
    (few : buffered < 8) (small : buffer.toNat < 2 ^ buffered) :
    packWords width buffer buffered block =
      (digits 256 (ceilDiv (buffered + block.length * width) 8)
        (buffer.toNat + 2 ^ buffered * ofDigits (2 ^ width) (block.map UInt64.toNat))).map
          UInt8.ofNat := by
  induction block generalizing buffer buffered with
  | nil =>
    rw [packWords, List.length_nil, Nat.zero_mul, Nat.add_zero]
    split
    · have one : ceilDiv buffered 8 = 1 := by
        unfold ceilDiv
        omega
      simp [one, digits, ofDigits, lowByteNat]
    · have none : buffered = 0 := by omega
      subst none
      rfl
  | cons word block ih =>
    have wordFits : word.toBitVec.toNat < 2 ^ width := fits word (by simp)
    have value := bufferOr word.toBitVec small (by omega)
    have next := bufferSmall small wordFits
    rw [← value] at next
    obtain ⟨left, leftSmall⟩ := drainLeft next
    have count : ceilDiv (buffered + (word :: block).length * width) 8 =
        (buffered + width) / 8 + ceilDiv ((buffered + width) % 8 + block.length * width) 8 := by
      rw [← ceilDivBytes, List.length_cons, Nat.succ_mul, Nat.add_comm (block.length * width),
        Nat.add_assoc]
    -- The bytes drained are the low digits of the number, and the bits left go on with its rest.
    rw [packWords, drainDigits, count, ofDigitsNext, digitsAppend, digitsLow (by decide),
      List.map_append]
    dsimp only
    rw [ih (fun other member => fits other (List.mem_cons_of_mem _ member))
      (Nat.mod_lt _ (by decide)) (left ▸ leftSmall), left, value,
      Nat.add_mul_div_left _ _ (Nat.pow_pos (by decide))]
    rfl

def number (bytes : Array UInt8) (start count : Nat) : Nat :=
  ofDigits 256 (((bytes.toList.drop start).take count).map UInt8.toNat)

theorem numberBound (bytes : Array UInt8) (start count : Nat) :
    number bytes start count < 2 ^ (8 * count) := by
  have small : ∀ d ∈ ((bytes.toList.drop start).take count).map UInt8.toNat, d < 256 := by
    intro d member
    obtain ⟨byte, -, rfl⟩ := List.mem_map.mp member
    exact byte.toNat_lt
  have few : (((bytes.toList.drop start).take count).map UInt8.toNat).length ≤ count := by
    rw [List.length_map, List.length_take]
    exact Nat.min_le_left _ _
  calc number bytes start count < 256 ^ _ := ofDigitsBound small
    _ ≤ 256 ^ count := Nat.pow_le_pow_right (by decide) few
    _ = 2 ^ (8 * count) := (Nat.pow_mul 2 8 count).symm

theorem numberSplit {bytes : Array UInt8} {start low : Nat} (inside : start + low ≤ bytes.size)
    (high : Nat) : number bytes start (low + high) =
      number bytes start low + 256 ^ low * number bytes (start + low) high := by
  have room : low ≤ bytes.size - start := by omega
  rw [number, List.take_add, List.map_append, ofDigitsAppend, List.drop_drop]
  simp [number, room]

theorem numberByte {bytes : Array UInt8} {start : Nat} {byte : UInt8}
    (read : bytes[start]? = some byte) : number bytes start 1 = byte.toNat := by
  obtain ⟨inside, rfl⟩ := Array.getElem?_eq_some_iff.mp read
  have first := List.drop_eq_getElem_cons (i := start) (l := bytes.toList) inside
  simp [number, first, ofDigits]

theorem fillNumber {bytes : Array UInt8} {width position buffered : Nat} {buffer : BitVec 128}
    (narrow : width ≤ 64) (small : buffer.toNat < 2 ^ buffered) (inside : position ≤ bytes.size) :
    fill bytes width position buffer buffered =
      if position + ceilDiv (width - buffered) 8 ≤ bytes.size then
        some (position + ceilDiv (width - buffered) 8,
          BitVec.ofNat 128 (buffer.toNat + 2 ^ buffered *
            number bytes position (ceilDiv (width - buffered) 8)),
          buffered + 8 * ceilDiv (width - buffered) 8)
      else none := by
  induction position, buffer, buffered using fill.induct bytes width with
  | case1 position buffer buffered short ended =>
    have all := Array.getElem?_eq_none_iff.mp ended
    have some : 0 < ceilDiv (width - buffered) 8 := (ltCeilDiv (by decide) _ _).mpr (by omega)
    rw [fill, if_pos short, ended, if_neg (by omega)]
  | case2 position buffer buffered short byte read ih =>
    obtain ⟨within, -⟩ := Array.getElem?_eq_some_iff.mp read
    have value := bufferOr byte.toBitVec small (by omega)
    have next := bufferSmall small byte.toBitVec.isLt
    have more : ceilDiv (width - buffered) 8 = 1 + ceilDiv (width - (buffered + 8)) 8 := by
      unfold ceilDiv
      omega
    have step := ih (value ▸ next) within
    rw [value, Nat.add_assoc, ← more] at step
    have bits : buffered + 8 + 8 * ceilDiv (width - (buffered + 8)) 8 =
        buffered + 8 * (1 + ceilDiv (width - (buffered + 8)) 8) := by omega
    have total : buffer.toNat + 2 ^ buffered * byte.toNat + 2 ^ (buffered + 8) *
          number bytes (position + 1) (ceilDiv (width - (buffered + 8)) 8) =
        buffer.toNat + 2 ^ buffered *
          number bytes position (ceilDiv (width - buffered) 8) := by
      rw [more, numberSplit within, numberByte read, Nat.pow_add]
      ring
    rw [fill, if_pos short, read]
    dsimp only
    rw [step, bits, ← more, ← total]
    rfl
  | case3 position buffer buffered enough =>
    have none : ceilDiv (width - buffered) 8 = 0 := by
      unfold ceilDiv
      omega
    rw [fill, if_neg enough, none, Nat.add_zero, if_pos inside]
    simp [number, ofDigits]

theorem filledNat {held buffered : Nat} (small : held < 2 ^ buffered) (bytes : Array UInt8)
    (position : Nat) {taken : Nat} (room : buffered + 8 * taken ≤ 128) :
    (BitVec.ofNat 128 (held + 2 ^ buffered * number bytes position taken)).toNat =
      held + 2 ^ buffered * number bytes position taken := by
  rw [BitVec.toNat_ofNat]
  exact Nat.mod_eq_of_lt (lt_of_lt_of_le (bufferSmall small (numberBound bytes position taken))
    (Nat.pow_le_pow_right (by decide) room))

theorem maskNat {width : Nat} (narrow : width ≤ 64) : (mask width).toNat = 2 ^ width - 1 := by
  rcases Nat.lt_or_eq_of_le narrow with short | rfl
  · have fits : 2 ^ width < 2 ^ 64 := Nat.pow_lt_pow_right (by decide) short
    have one : 1 ≤ 2 ^ width := Nat.one_le_two_pow
    have shift : (UInt64.ofNat width).toNat % 64 = width := by
      rw [UInt64.toNat_ofNat', Nat.mod_eq_of_lt (by omega : width < 2 ^ 64)]
      exact Nat.mod_eq_of_lt short
    have shifted : ((1 : UInt64) <<< UInt64.ofNat width).toNat = 2 ^ width := by
      rw [UInt64.toNat_shiftLeft, shift, UInt64.toNat_one, Nat.shiftLeft_eq, Nat.one_mul,
        Nat.mod_eq_of_lt fits]
    rw [mask, if_neg (by omega), UInt64.toNat_sub_of_le, shifted, UInt64.toNat_one]
    rw [UInt64.le_iff_toNat_le, shifted]
    exact one
  · rfl

theorem wordNat {width : Nat} (narrow : width ≤ 64) (buffer : BitVec 128) :
    UInt64.ofBitVec (buffer.setWidth 64) &&& mask width =
      UInt64.ofNat (buffer.toNat % 2 ^ width) := by
  have within : 2 ^ width ∣ 2 ^ 64 := Nat.pow_dvd_pow 2 narrow
  apply UInt64.toNat_inj.mp
  rw [UInt64.toNat_and, maskNat narrow, Nat.and_two_pow_sub_one_eq_mod, UInt64.toNat_ofBitVec,
    BitVec.toNat_setWidth, Nat.mod_mod_of_dvd _ within, UInt64.toNat_ofNat']
  exact (Nat.mod_eq_of_lt (lt_of_lt_of_le (Nat.mod_lt _ (Nat.two_pow_pos _))
    (Nat.pow_le_pow_right (by decide) narrow))).symm

theorem ceilDivNext (width buffered count : Nat) :
    ceilDiv ((count + 1) * width - buffered) 8 = ceilDiv (width - buffered) 8 +
      ceilDiv (count * width - (buffered + 8 * ceilDiv (width - buffered) 8 - width)) 8 := by
  rw [Nat.succ_mul]
  unfold ceilDiv
  omega

theorem filledBits {buffered : Nat} (few : buffered < 8) (width : Nat) :
    width ≤ buffered + 8 * ceilDiv (width - buffered) 8 ∧
      buffered + 8 * ceilDiv (width - buffered) 8 - width < 8 := by
  unfold ceilDiv
  omega

theorem numberNext {bytes : Array UInt8} {position taken width buffered : Nat}
    (inside : position + taken ≤ bytes.size) (enough : width ≤ buffered + 8 * taken)
    (held later : Nat) :
    held + 2 ^ buffered * number bytes position (taken + later) =
      (held + 2 ^ buffered * number bytes position taken) + 2 ^ width *
        (2 ^ (buffered + 8 * taken - width) * number bytes (position + taken) later) := by
  rw [numberSplit inside, ← Nat.mul_assoc (2 ^ width), ← Nat.pow_add, Nat.add_sub_cancel' enough,
    Nat.pow_add, Nat.pow_mul]
  ring

theorem unpackWordsDigits {bytes : Array UInt8} {width position buffered : Nat}
    {buffer : BitVec 128} (narrow : width ≤ 64) (few : buffered < 8)
    (small : buffer.toNat < 2 ^ buffered) (inside : position ≤ bytes.size) (count : Nat) :
    unpackWords bytes width position buffer buffered count =
      if position + ceilDiv (count * width - buffered) 8 ≤ bytes.size then
        some ((digits (2 ^ width) count (buffer.toNat + 2 ^ buffered *
            number bytes position (ceilDiv (count * width - buffered) 8))).map UInt64.ofNat,
          position + ceilDiv (count * width - buffered) 8)
      else none := by
  induction count generalizing position buffer buffered with
  | zero =>
    have none : ceilDiv (0 * width - buffered) 8 = 0 := by
      unfold ceilDiv
      omega
    rw [unpackWords, none, Nat.add_zero, if_pos inside]
    rfl
  | succ count ih =>
    have filled := fillNumber narrow small inside
    have needed := ceilDivNext width buffered count
    obtain ⟨enough, left⟩ := filledBits few width
    generalize ceilDiv (width - buffered) 8 = taken at *
    have value := filledNat small bytes position (show buffered + 8 * taken ≤ 128 by omega)
    have later : (buffer.toNat + 2 ^ buffered * number bytes position taken) / 2 ^ width <
        2 ^ (buffered + 8 * taken - width) := by
      apply Nat.div_lt_of_lt_mul
      rw [← Nat.pow_add, Nat.add_sub_cancel' enough]
      exact bufferSmall small (numberBound bytes position taken)
    rw [unpackWords, filled]
    by_cases first : position + taken ≤ bytes.size
    · rw [if_pos first]
      dsimp only
      -- The word is the low digit of what is buffered, and the bits left go on with its rest.
      rw [wordNat narrow, value, ih left (by rwa [shiftedNat, value]) first, shiftedNat, value,
        Nat.add_assoc position, needed, numberNext first enough, digits,
        Nat.add_mul_mod_self_left, Nat.add_mul_div_left _ _ (Nat.two_pow_pos width)]
      by_cases all : position +
          (taken + ceilDiv (count * width - (buffered + 8 * taken - width)) 8) ≤ bytes.size
      · rw [if_pos all, if_pos all]
        rfl
      · rw [if_neg all, if_neg all]
    · rw [if_neg first, if_neg (by omega)]

theorem digitsOfOne (count value : Nat) :
    (digits 1 count value).map UInt64.ofNat = List.replicate count 0 := by
  induction count generalizing value with
  | zero => rfl
  | succ count ih => rw [digits, List.map_cons, ih, Nat.mod_one, List.replicate_succ]; rfl

theorem unpackBlockDigits {bytes : Array UInt8} {position : Nat} {width : UInt8}
    (header : bytes[position]? = some width) (narrow : width.toNat ≤ 64) (count : Nat) :
    unpackBlock bytes position count =
      if position + 1 + payloadLength count width.toNat ≤ bytes.size then
        some ((digits (2 ^ width.toNat) count
            (number bytes (position + 1) (payloadLength count width.toNat))).map UInt64.ofNat,
          position + 1 + payloadLength count width.toNat)
      else none := by
  have inside : position + 1 ≤ bytes.size := (Array.getElem?_eq_some_iff.mp header).1
  rw [unpackBlock, header]
  dsimp only
  split
  · rename_i zero
    have none : payloadLength count 0 = 0 := by simp [payloadLength, ceilDiv]
    rw [zero, UInt8.toNat_zero, none, Nat.add_zero, if_pos inside, Nat.pow_zero, digitsOfOne]
  · have empty : (0 : BitVec 128).toNat = 0 := rfl
    rw [unpackWordsDigits narrow (by decide) (by decide) inside, empty, Nat.pow_zero, Nat.one_mul,
      Nat.zero_add, Nat.sub_zero]
    rfl

end Packing
end CommunityGraph
