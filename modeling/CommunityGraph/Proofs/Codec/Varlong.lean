import Mathlib.Data.Nat.Digits.Lemmas
import CommunityGraph.Codec.Varlong

/-! Targets written as variable-length steps read back as they were, from any starting target and
with any bytes behind them. In how many chunks they were written does not show. -/
namespace CommunityGraph.Varlong

theorem unzigzagZigzag (z : Int) : unzigzag (zigzag z) = z := by
  cases z with
  | ofNat n =>
    have even : 2 * n % 2 = 0 := by omega
    simp [zigzag, unzigzag, even]
  | negSucc n =>
    have odd : (2 * n + 1) % 2 = 1 := by omega
    have half : (2 * n + 1) / 2 = n := by omega
    simp [zigzag, unzigzag, odd, half]

theorem zigzagUnzigzag (n : Nat) : zigzag (unzigzag n) = n := by
  unfold unzigzag
  split
  · simp only [zigzag]
    omega
  · simp only [zigzag]
    omega

theorem unzigzagFits {n : Nat} (small : n < UInt64.size) :
    -9223372036854775808 ≤ unzigzag n ∧ unzigzag n < 9223372036854775808 := by
  have size : UInt64.size = 18446744073709551616 := rfl
  unfold unzigzag
  split
  · simp only [Int.ofNat_eq_natCast]
    omega
  · simp only [Int.negSucc_eq]
    omega

theorem zigzagFits {z : Int} (low : -9223372036854775808 ≤ z) (high : z < 9223372036854775808) :
    zigzag z < UInt64.size := by
  have size : UInt64.size = 18446744073709551616 := rfl
  cases z with
  | ofNat n => simp only [zigzag, Int.ofNat_eq_natCast] at high ⊢; omega
  | negSucc n => simp only [zigzag, Int.negSucc_eq] at low ⊢; omega

theorem zigzagWord (z : Int64) : zigzag z.toInt < UInt64.size :=
  zigzagFits (by simpa using Int64.le_toInt z) (by simpa using Int64.toInt_lt z)

theorem stepFits (previous target : UInt64) : zigzag (step previous target) < UInt64.size := by
  exact zigzagWord (target - previous).toInt64

theorem ofIntToInt64 (word : UInt64) : UInt64.ofInt word.toInt64.toInt = word := by
  have bound := word.toNat_lt
  have value : word.toInt64.toInt % (18446744073709551616 : Nat) = word.toNat := by
    rw [← Int64.toInt_toBitVec, UInt64.toBitVec_toInt64, BitVec.toInt_eq_toNat_bmod,
      UInt64.toNat_toBitVec]
    exact Int.bmod_emod.trans (Int.emod_eq_of_lt (by omega) (by omega))
  have small : (word.toInt64.toInt % 18446744073709551616).toNat = word.toNat := by
    exact (congrArg Int.toNat value).trans (Int.toNat_natCast _)
  exact (congrArg UInt64.ofNat small).trans UInt64.ofNat_toNat

theorem stepBack (previous target : UInt64) :
    previous + UInt64.ofInt (step previous target) = target := by
  rw [step, ofIntToInt64, UInt64.add_comm, UInt64.sub_add_cancel]

theorem byteFits {n : Nat} (small : n < 256) : n < UInt8.size := small

theorem decodeEncode (n : Nat) (rest : List UInt8) : decode (encode n ++ rest) = some (n, rest) := by
  induction n using Nat.strongRecOn with
  | ind n ih =>
    rw [encode]
    split
    · rename_i small
      have byte : (UInt8.ofNat n).toNat = n := UInt8.toNat_ofNat_of_lt' (byteFits (by omega))
      simp [decode, byte, small]
    · rename_i large
      have byte : (UInt8.ofNat (n % 128 + 128)).toNat = n % 128 + 128 :=
        UInt8.toNat_ofNat_of_lt' (byteFits (by omega))
      have continued : ¬ n % 128 + 128 < 128 := by omega
      have value : n % 128 + 128 - 128 + 128 * (n / 128) = n := by omega
      rw [List.cons_append, decode, byte, if_neg continued, ih (n / 128) (by omega)]
      simp only [value]

theorem encodeDigits {n : Nat} (nonzero : n ≠ 0) :
    (encode n).map (fun byte => byte.toNat % 128) = Nat.digits 128 n := by
  induction n using Nat.strongRecOn with
  | ind n ih =>
    rw [encode, Nat.digits_def' (by norm_num) (Nat.pos_of_ne_zero nonzero)]
    split
    · rename_i small
      have byte : (UInt8.ofNat n).toNat = n := UInt8.toNat_ofNat_of_lt' (byteFits (by omega))
      have none : n / 128 = 0 := by omega
      rw [List.map_singleton, byte, none, Nat.digits_zero]
    · rename_i large
      have byte : (UInt8.ofNat (n % 128 + 128)).toNat = n % 128 + 128 :=
        UInt8.toNat_ofNat_of_lt' (byteFits (by omega))
      have group : (n % 128 + 128) % 128 = n % 128 := by omega
      rw [List.map_cons, byte, group, ih (n / 128) (by omega) (by omega)]

theorem encodeLength (n : Nat) :
    (encode n).length = if n < 128 then 1 else (Nat.digits 128 n).length := by
  split
  · rename_i small
    rw [encode, if_pos small, List.length_singleton]
  · rename_i large
    rw [← encodeDigits (n := n) (by omega), List.length_map]

theorem encodeShort (word : UInt64) : (encode word.toNat).length ≤ 10 := by
  rw [encodeLength]
  split
  · norm_num
  · have bound : word.toNat < 128 ^ 10 := lt_trans word.toNat_lt (by norm_num)
    exact (Nat.digits_length_le_iff (by norm_num) word.toNat).mpr bound

theorem decodeWordEncode (n : Nat) (rest : List UInt8) :
    decodeWord (encode n ++ rest) = some (UInt64.ofNat n, rest) := by
  simp [decodeWord, decodeEncode]

theorem decodeDeltasEncodeDeltas (previous : UInt64) (targets : List UInt64) (rest : List UInt8) :
    decodeDeltas previous targets.length (encodeDeltas previous targets ++ rest) = some targets := by
  induction targets generalizing previous with
  | nil => simp [decodeDeltas]
  | cons target targets ih =>
    have fits := stepFits previous target
    have word : (UInt64.ofNat (zigzag (step previous target))).toNat =
        zigzag (step previous target) := UInt64.toNat_ofNat_of_lt' fits
    simp only [encodeDeltas, List.length_cons, decodeDeltas, List.append_assoc]
    rw [decodeWordEncode]
    simp only [word, unzigzagZigzag, stepBack, ih target]

theorem encodeDeltasAppend (previous : UInt64) (xs ys : List UInt64) :
    encodeDeltas previous (xs ++ ys) =
      encodeDeltas previous xs ++ encodeDeltas (lastTarget previous xs) ys := by
  induction xs generalizing previous with
  | nil => rfl
  | cons x xs ih => simp [encodeDeltas, lastTarget, ih]

theorem lastTargetAppend (previous : UInt64) (xs ys : List UInt64) :
    lastTarget previous (xs ++ ys) = lastTarget (lastTarget previous xs) ys := by
  induction xs generalizing previous with
  | nil => rfl
  | cons x xs ih => exact ih x

theorem lastTargetLast (previous : UInt64) (targets : List UInt64) :
    lastTarget previous targets = targets.getLastD previous := by
  induction targets generalizing previous with
  | nil => rfl
  | cons target targets ih => rw [lastTarget, ih, List.getLastD_cons]

theorem encodeChunksBytes (previous : UInt64) (chunks : List (List UInt64)) :
    (encodeChunks previous chunks).1 = encodeDeltas previous chunks.flatten := by
  induction chunks generalizing previous with
  | nil => rfl
  | cons chunk chunks ih =>
    rw [List.flatten_cons, encodeDeltasAppend, ← ih]
    rfl

theorem encodeChunksLasts (previous : UInt64) (chunks : List (List UInt64)) :
    (encodeChunks previous chunks).2 =
      (List.range chunks.length).map fun k => lastTarget previous (chunks.take (k + 1)).flatten := by
  induction chunks generalizing previous with
  | nil => rfl
  | cons chunk chunks ih =>
    have later : (encodeChunks previous (chunk :: chunks)).2 =
      lastTarget previous chunk :: (encodeChunks (lastTarget previous chunk) chunks).2 := rfl
    have first : ((chunk :: chunks).take 1).flatten = chunk := by simp
    rw [later, ih, List.length_cons, List.range_succ_eq_map, List.map_cons, List.map_map, first]
    congr 1
    refine List.map_congr_left fun k _ => ?_
    rw [Function.comp_apply, Nat.succ_eq_add_one, List.take_succ_cons, List.flatten_cons,
      lastTargetAppend]

/-- Signed words and words stand for each other; a word is read back from its groups of seven bits, of
which there are at most ten; and targets are read back from their steps, in whatever chunks these were
written. -/
theorem varlongsReadBack :
    ((∀ z : Int64, ∃ word : UInt64, zigzag z.toInt = word.toNat ∧ unzigzag word.toNat = z.toInt) ∧
      ∀ word : UInt64, ∃ z : Int64, unzigzag word.toNat = z.toInt ∧ zigzag z.toInt = word.toNat) ∧
    (∀ (word : UInt64) (rest : List UInt8),
      decodeWord (encode word.toNat ++ rest) = some (word, rest) ∧
        (encode word.toNat).length =
          (if word.toNat < 128 then 1 else (Nat.digits 128 word.toNat).length) ∧
        (encode word.toNat).length ≤ 10) ∧
    (∀ (previous : UInt64) (chunks : List (List UInt64)),
      encodeChunks previous chunks = (encodeDeltas previous chunks.flatten,
        (List.range chunks.length).map fun k => (chunks.take (k + 1)).flatten.getLastD previous)) ∧
    ∀ (chunks : List (List UInt64)) (rest : List UInt8),
      decodeDeltas 0 chunks.flatten.length ((encodeChunks 0 chunks).1 ++ rest) =
        some chunks.flatten := by
  refine ⟨⟨fun z => ?_, fun word => ?_⟩, fun word rest => ?_, fun previous chunks => ?_,
    fun chunks rest => ?_⟩
  · have fits : (UInt64.ofNat (zigzag z.toInt)).toNat = zigzag z.toInt :=
      UInt64.toNat_ofNat_of_lt' (zigzagWord z)
    exact ⟨UInt64.ofNat (zigzag z.toInt), fits.symm, by rw [fits, unzigzagZigzag]⟩
  · obtain ⟨low, high⟩ := unzigzagFits word.toNat_lt
    have fits : (Int64.ofInt (unzigzag word.toNat)).toInt = unzigzag word.toNat :=
      Int64.toInt_ofInt_of_le (by simpa using low) (by simpa using high)
    exact ⟨Int64.ofInt (unzigzag word.toNat), fits.symm, by rw [fits, zigzagUnzigzag]⟩
  · refine ⟨?_, encodeLength _, encodeShort word⟩
    rw [decodeWordEncode, UInt64.ofNat_toNat]
  · refine Prod.ext (encodeChunksBytes previous chunks) ?_
    rw [encodeChunksLasts]
    simp only [lastTargetLast]
  · rw [encodeChunksBytes]
    exact decodeDeltasEncodeDeltas 0 chunks.flatten rest

example : encodeChunks 0 [[10, 3], [18446744073709551615]] =
    ([20, 13, 7], [3, 18446744073709551615]) := by
  decide +kernel

end CommunityGraph.Varlong
