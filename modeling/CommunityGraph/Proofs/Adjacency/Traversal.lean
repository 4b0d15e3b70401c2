import CommunityGraph.Proofs.Adjacency.Cursor

/-! A cursor after any number of calls. It has unpacked the blocks of the targets it gave out and no
others, so it never passes the end of its list, and whatever lies behind the list is not seen. -/
namespace CommunityGraph

theorem Row.differencesGet (previous : UInt64) (targets : List UInt64) (index : Nat) :
    (Row.differences previous targets)[index]? =
      targets[index]?.map fun target => target - (targets.take index).getLastD previous := by
  induction targets generalizing previous index with
  | nil => rfl
  | cons target targets ih =>
    cases index with
    | zero => rfl
    | succ index =>
      rw [Row.differences, List.getElem?_cons_succ, ih, List.getElem?_cons_succ, List.take_succ_cons,
        List.getLastD_cons]

namespace Packing

theorem packNil : pack [] = [] := by simp [pack, blocks]

theorem packAppend {front : List UInt64} (whole : front.length % blockSize = 0)
    (rest : List UInt64) : pack (front ++ rest) = pack front ++ pack rest := by
  by_cases empty : front = []
  · simp [empty, packNil]
  · have any := List.length_pos_iff.mpr empty
    have long : blockSize ≤ front.length := by
      unfold blockSize at whole ⊢
      omega
    have later : (front.drop blockSize).length % blockSize = 0 := by
      rw [List.length_drop]
      unfold blockSize at whole ⊢
      omega
    rw [packSplit empty, packSplit (by simp [empty]), List.take_append_of_le_length long,
      List.drop_append_of_le_length long, packAppend later rest, List.append_assoc]
termination_by front.length
decreasing_by
  rw [List.length_drop]
  unfold blockSize
  omega

theorem packShort {block : List UInt64} (nonempty : block ≠ []) (short : block.length ≤ blockSize) :
    pack block = packBlock block := by
  rw [packSplit nonempty, List.take_of_length_le short, List.drop_of_length_le short, packNil,
    List.append_nil]

theorem unpackNext {page : Array UInt8} {start : Nat} {words : List UInt64}
    (placed : Segment page start (pack words)) {count : Nat} (between : count % blockSize = 0)
    (more : count < words.length) :
    unpackBlock page (start + (pack (words.take count)).length)
        (min (words.length - count) blockSize) =
      some ((words.drop count).take blockSize,
        start + (pack (words.take (count + blockSize))).length) := by
  have front : (words.take count).length = count := List.length_take_of_le (Nat.le_of_lt more)
  have nonempty : words.drop count ≠ [] := by simpa using more
  have count' : min (words.length - count) blockSize =
      ((words.drop count).take blockSize).length := by
    rw [List.length_take, List.length_drop, Nat.min_comm]
  have block : pack ((words.drop count).take blockSize) =
      packBlock ((words.drop count).take blockSize) := by
    refine packShort ?_ (List.length_take_le _ _)
    simpa [blockSize] using more
  have split : pack words = pack (words.take count) ++ pack (words.drop count) := by
    rw [← packAppend (by rwa [front]), List.take_append_drop]
  have stop : pack (words.take (count + blockSize)) =
      pack (words.take count) ++ packBlock ((words.drop count).take blockSize) := by
    rw [List.take_add, packAppend (by rwa [front]), block]
  rw [split, packSplit nonempty] at placed
  rw [count', unpackBlockPackBlock placed.right.left, stop, List.length_append, Nat.add_assoc]

end Packing

namespace Cursor
open Packing

def unpacked (count : Nat) : Nat := blockSize * ceilDiv count blockSize

theorem unpackedAbove (count : Nat) : count ≤ unpacked count := leMulCeilDiv count (by decide)

theorem unpackedWhole (count : Nat) : unpacked count % blockSize = 0 := Nat.mul_mod_right _ _

theorem unpackedInside {count : Nat} (inside : count % blockSize ≠ 0) :
    count < unpacked count ∧ unpacked (count + 1) = unpacked count := by
  unfold unpacked ceilDiv
  unfold blockSize at inside ⊢
  omega

theorem unpackedBetween {count : Nat} (between : count % blockSize = 0) :
    unpacked count = count ∧ unpacked (count + 1) = count + blockSize := by
  unfold unpacked ceilDiv
  unfold blockSize at between ⊢
  omega

section Standing
variable (page : Array UInt8) (start : Nat) (targets : List UInt64)

def standing (count : Nat) : Cursor where
  bytes := page
  position := start + (pack ((Row.differences 0 targets).take (unpacked count))).length
  ahead := targets.length - unpacked count
  block := ((Row.differences 0 targets).take (unpacked count)).drop count
  last := (targets.take count).getLastD 0

theorem standingStart : make page start targets.length = standing page start targets 0 := by
  have none : unpacked 0 = 0 := rfl
  simp [standing, make, none, packNil]

variable {page start targets}

theorem standingRemaining {count : Nat} (within : count ≤ targets.length) :
    (standing page start targets count).remaining = targets.length - count := by
  have above := unpackedAbove count
  simp only [remaining, standing, List.length_drop, List.length_take, Row.differencesLength]
  omega

theorem lastSnoc {count : Nat} {target : UInt64} (here : targets[count]? = some target) :
    (targets.take (count + 1)).getLastD 0 = target := by
  rw [List.take_add_one, here]
  simp

theorem lastForward {count : Nat} {target : UInt64} :
    (targets.take count).getLastD 0 + (target - (targets.take count).getLastD 0) = target := by
  rw [UInt64.add_comm, UInt64.sub_add_cancel]

theorem wordHere {count : Nat} {target : UInt64} (here : targets[count]? = some target) :
    ∃ within : count < (Row.differences 0 targets).length,
      (Row.differences 0 targets)[count] = target - (targets.take count).getLastD 0 := by
  have word := Row.differencesGet 0 targets count
  rwa [here, Option.map_some, List.getElem?_eq_some_iff] at word

theorem standingInside {count : Nat} {target : UInt64} (here : targets[count]? = some target)
    (inside : count % blockSize ≠ 0) :
    (standing page start targets count).next =
      some (some target, standing page start targets (count + 1)) := by
  obtain ⟨more, same⟩ := unpackedInside inside
  have block : (standing page start targets count).block =
      (target - (targets.take count).getLastD 0) ::
        ((Row.differences 0 targets).take (unpacked count)).drop (count + 1) := by
    obtain ⟨within, word⟩ := wordHere here
    have short : count < ((Row.differences 0 targets).take (unpacked count)).length := by
      rw [List.length_take]
      omega
    rw [standing, List.drop_eq_getElem_cons short, List.getElem_take, word]
  rw [nextInBlock block]
  simp only [standing, lastForward, lastSnoc here, same]

theorem standingBetween (placed : Segment page start (pack (Row.differences 0 targets)))
    {count : Nat} {target : UInt64} (here : targets[count]? = some target)
    (between : count % blockSize = 0) :
    (standing page start targets count).next =
      some (some target, standing page start targets (count + 1)) := by
  obtain ⟨now, next⟩ := unpackedBetween between
  obtain ⟨within, word⟩ := wordHere here
  have opened := unpackNext placed between within
  have positive : 0 < blockSize := by decide
  rw [List.drop_eq_getElem_cons within, word, List.take_cons positive, Row.differencesLength]
    at opened
  have used : (standing page start targets count).block = [] := by
    simp [standing, now]
  have ahead : (standing page start targets count).ahead = targets.length - count := by
    rw [standing, now]
  have some : (standing page start targets count).ahead ≠ 0 := by
    rw [Row.differencesLength] at within
    omega
  have left : targets.length - count - min (targets.length - count) blockSize =
      targets.length - (count + blockSize) := by omega
  have block : ((Row.differences 0 targets).take (count + blockSize)).drop (count + 1) =
      ((Row.differences 0 targets).drop (count + 1)).take (blockSize - 1) := by
    rw [List.drop_take]
    congr 1
    omega
  rw [nextOpens used some (by simpa only [standing, now] using opened), ahead, left, ← block]
  simp only [standing, now, next, lastForward, lastSnoc here]

theorem standingNext (placed : Segment page start (pack (Row.differences 0 targets))) {count : Nat}
    {target : UInt64} (here : targets[count]? = some target) :
    (standing page start targets count).next =
      some (some target, standing page start targets (count + 1)) := by
  by_cases between : count % blockSize = 0
  · exact standingBetween placed here between
  · exact standingInside here between

theorem standingDone :
    (standing page start targets targets.length).next =
      some (none, standing page start targets targets.length) := by
  have above := unpackedAbove targets.length
  have used : (standing page start targets targets.length).block = [] := by
    apply List.drop_eq_nil_of_le
    rw [List.length_take, Row.differencesLength]
    exact Nat.min_le_right _ _
  have none : (standing page start targets targets.length).ahead = 0 :=
    Nat.sub_eq_zero_of_le above
  simp only [next, used, none, if_true]

theorem standingTake (placed : Segment page start (pack (Row.differences 0 targets))) {count : Nat}
    (more : Nat) (within : count ≤ targets.length) :
    take more (standing page start targets count) =
      some ((targets.drop count).take more,
        standing page start targets (min (count + more) targets.length)) := by
  induction more generalizing count with
  | zero => simp [take, within]
  | succ more ih =>
    rcases Nat.lt_or_eq_of_le within with inside | rfl
    · have step := standingNext placed (List.getElem?_eq_getElem inside)
      have rest := ih (Nat.succ_le_of_lt inside)
      rw [Nat.succ_eq_add_one, Nat.add_right_comm] at rest
      simp only [take, step, rest, List.drop_eq_getElem_cons inside, List.take_succ_cons,
        Nat.add_assoc]
    · simp [take, standingDone]

theorem lastBelow (ascending : targets.Pairwise (· ≤ ·)) {count : Nat} {target : UInt64}
    (here : targets[count]? = some target) : (targets.take count).getLastD 0 ≤ target := by
  cases count with
  | zero => exact UInt64.zero_le
  | succ count =>
    obtain ⟨inside, rfl⟩ := List.getElem?_eq_some_iff.mp here
    have earlier : count < targets.length := Nat.lt_of_succ_lt inside
    rw [lastSnoc (List.getElem?_eq_getElem earlier)]
    exact List.pairwise_iff_getElem.mp ascending count (count + 1) earlier inside (Nat.lt_succ_self _)

end Standing

/-- What holds of a cursor over the targets after so many calls. The sum that the next call makes does
not pass the end of the words. -/
structure After (start : Nat) (targets : List UInt64) (count : Nat) (c : Cursor) : Prop where
  remaining : c.remaining = targets.length - count
  hint : c.sizeHint = (targets.length - count, some (targets.length - count))
  position : c.position =
    start + (pack ((Row.differences 0 targets).take (unpacked count))).length
  within : c.position ≤ start + (pack (Row.differences 0 targets)).length
  yields : ∀ target, targets[count]? = some target →
    ∃ word rest, (Row.differences 0 targets)[count]? = some word ∧
      c.next = some (some target, rest) ∧ c.last.toNat + word.toNat = target.toNat
  ended : count = targets.length → c.next = some (none, c)

theorem packTakeLength {words : List UInt64} {count : Nat} (whole : count % blockSize = 0) :
    (pack (words.take count)).length ≤ (pack words).length := by
  by_cases short : words.length ≤ count
  · rw [List.take_of_length_le short]
  · have front : (words.take count).length = count := List.length_take_of_le (by omega)
    have split : pack words = pack (words.take count) ++ pack (words.drop count) := by
      rw [← packAppend (by rwa [front]), List.take_append_drop]
    rw [split, List.length_append]
    exact Nat.le_add_right _ _

theorem standingAfter {page : Array UInt8} {start : Nat} {targets : List UInt64}
    (placed : Segment page start (pack (Row.differences 0 targets)))
    (ascending : targets.Pairwise (· ≤ ·)) {count : Nat} (within : count ≤ targets.length) :
    After start targets count (standing page start targets count) where
  remaining := standingRemaining within
  hint := by rw [sizeHint, standingRemaining within]
  position := rfl
  within := Nat.add_le_add_left (packTakeLength (unpackedWhole count)) start
  yields target here := by
    have below := lastBelow ascending here
    refine ⟨target - (targets.take count).getLastD 0, _, ?_, standingNext placed here, ?_⟩
    · rw [Row.differencesGet, here, Option.map_some]
    · rw [UInt64.toNat_sub_of_le _ _ below]
      exact Nat.add_sub_cancel' (UInt64.le_iff_toNat_le.mp below)
  ended := by
    rintro rfl
    exact standingDone

def unbound (c : Cursor) : Cursor := { c with bytes := #[] }

/-- A cursor gives out the packed list and ends with it, and what lies behind the list on the page
makes no difference to any call. -/
theorem listTraversed {targets : List UInt64} (ascending : targets.Pairwise (· ≤ ·))
    (before after : List UInt8) :
    let cursor (behind : List UInt8) :=
      make (before ++ pack (Row.differences 0 targets) ++ behind).toArray before.length targets.length
    (cursor after).toList? = some targets ∧
    (∀ count ≤ targets.length, ∃ c, take count (cursor after) = some (targets.take count, c) ∧
      After before.length targets count c) ∧
    ∀ (count : Nat) (other : List UInt8),
      (take count (cursor after)).map (Prod.map id unbound) =
        (take count (cursor other)).map (Prod.map id unbound) := by
  have placed (behind : List UInt8) :
      Segment (before ++ pack (Row.differences 0 targets) ++ behind).toArray before.length
        (pack (Row.differences 0 targets)) := ⟨before, behind, rfl, rfl⟩
  refine ⟨toListPacked (placed after), fun count within => ?_, fun count other => ?_⟩
  · have taken := standingTake (placed after) count (Nat.zero_le _)
    rw [Nat.zero_add, Nat.min_eq_left within, List.drop_zero, ← standingStart] at taken
    exact ⟨_, taken, standingAfter (placed after) ascending within⟩
  · simp only [standingStart, standingTake (placed _) count (Nat.zero_le _), Option.map_some]
    rfl

def sampleTargets : List UInt64 := List.replicate 64 3 ++ [5, 18446744073709551615]

theorem sampleTraversed :
    sampleTargets.Pairwise (· ≤ ·) ∧
    (make ([7] ++ pack (Row.differences 0 sampleTargets) ++ [255]).toArray 1 66).toList? =
      some sampleTargets ∧
    ∃ c, take 64 (make ([7] ++ pack (Row.differences 0 sampleTargets) ++ [255]).toArray 1 66) =
      some (List.replicate 64 3, c) ∧ After 1 sampleTargets 64 c := by
  have ascending : sampleTargets.Pairwise (· ≤ ·) := by decide +kernel
  obtain ⟨whole, calls, -⟩ := listTraversed ascending [7] [255]
  exact ⟨ascending, whole, calls 64 (by decide)⟩

end Cursor
end CommunityGraph
