import CommunityGraph.Adjacency.Cursor
import CommunityGraph.Adjacency.Row
import CommunityGraph.Proofs.Codec.Packing

/-! A cursor at the start of a packed list yields the list, whatever else lies on the page. -/
namespace CommunityGraph

@[simp] theorem Row.differencesLength (previous : UInt64) (targets : List UInt64) :
    (Row.differences previous targets).length = targets.length := by
  induction targets generalizing previous with
  | nil => rfl
  | cons target targets ih => simp [Row.differences, ih]

namespace Cursor

structure Reading (c : Cursor) (words : List UInt64) : Prop where
  intro ::
  split : ∃ packed, words = c.block ++ packed ∧ c.ahead = packed.length ∧
    Segment c.bytes c.position (Packing.pack packed)

theorem Reading.count {c : Cursor} {words : List UInt64} (h : Reading c words) :
    c.remaining = words.length := by
  obtain ⟨packed, same, ahead, _⟩ := h.split
  simp [remaining, same, ahead, Nat.add_comm]

theorem nextInBlock {c : Cursor} {word : UInt64} {block : List UInt64}
    (inside : c.block = word :: block) :
    c.next = some (some (c.last + word), { c with block := block, last := c.last + word }) := by
  simp only [next, inside]

theorem nextOpens {c : Cursor} {word : UInt64} {block : List UInt64} {stop : Nat}
    (done : c.block = []) (more : c.ahead ≠ 0)
    (opened : Packing.unpackBlock c.bytes c.position (min c.ahead Packing.blockSize) =
      some (word :: block, stop)) :
    c.next = some (some (c.last + word),
      ⟨c.bytes, stop, c.ahead - min c.ahead Packing.blockSize, block, c.last + word⟩) := by
  simp only [next, done, if_neg more, opened]

theorem nextWord {c : Cursor} {word : UInt64} {words : List UInt64}
    (h : Reading c (word :: words)) :
    ∃ rest, c.next = some (some (c.last + word), rest) ∧ rest.last = c.last + word ∧
      Reading rest words := by
  obtain ⟨packed, same, ahead, placed⟩ := h.split
  cases hb : c.block with
  | cons d block =>
    rw [hb, List.cons_append, List.cons.injEq] at same
    obtain ⟨rfl, rfl⟩ := same
    exact ⟨_, nextInBlock hb, rfl, ⟨packed, rfl, ahead, placed⟩⟩
  | nil =>
    rw [hb, List.nil_append] at same
    subst same
    have count : min c.ahead Packing.blockSize =
        ((word :: words).take Packing.blockSize).length := by
      rw [ahead, List.length_take, Nat.min_comm]
    rw [Packing.packSplit (by simp)] at placed
    have unpacked := Packing.unpackBlockPackBlock placed.left
    rw [← count] at unpacked
    refine ⟨_, nextOpens hb (by simp [ahead]) unpacked, rfl, ?_⟩
    refine ⟨words.drop (Packing.blockSize - 1), ?_, ?_, placed.right⟩
    · exact (List.take_append_drop _ _).symm
    · simp only [List.length_drop, ahead, List.length_cons, Packing.blockSize]
      omega

theorem takeAll {c : Cursor} {targets : List UInt64}
    (h : Reading c (Row.differences c.last targets)) :
    ∃ rest, take targets.length c = some (targets, rest) := by
  induction targets generalizing c with
  | nil => exact ⟨c, rfl⟩
  | cons target targets ih =>
    obtain ⟨rest, step, last, more⟩ := nextWord h
    have back : c.last + (target - c.last) = target := by
      rw [UInt64.add_comm, UInt64.sub_add_cancel]
    rw [back] at step last
    rw [← last] at more
    obtain ⟨stop, later⟩ := ih more
    exact ⟨stop, by simp [take, step, later]⟩

theorem toListPacked {page : Array UInt8} {position : Nat} {targets : List UInt64}
    (placed : Segment page position (Packing.pack (Row.differences 0 targets))) :
    (make page position targets.length).toList? = some targets := by
  have reading : Reading (make page position targets.length) (Row.differences 0 targets) :=
    ⟨_, rfl, by simp [make], placed⟩
  obtain ⟨rest, all⟩ := takeAll reading
  have count := reading.count
  rw [Row.differencesLength] at count
  simp [toList?, count, all]

theorem toListEmpty : Cursor.empty.toList? = some [] := rfl

end Cursor
end CommunityGraph
