import CommunityGraph.Proofs.Batch.Coverage

/-! Batches claimed one by one. A queue hands out the batches of its source in order, each once, and
then nothing more; a queue of equal batches hands out the ranges that cutting its elements gives. -/
namespace CommunityGraph

namespace BatchSource

structure Hands (source : BatchSource) (batches : List Batch) : Prop where
  count : source.count = batches.length
  batch : ∀ index, source.batch? index = batches[index]?

end BatchSource

namespace BatchQueue

inductive Drains : BatchQueue → List Batch → BatchQueue → Prop where
  | empty {q : BatchQueue} (none : q.pop.1 = none) : Drains q [] q.pop.2
  | next {q rest : BatchQueue} {batch : Batch} {batches : List Batch}
      (found : q.pop.1 = some batch) (more : Drains q.pop.2 batches rest) :
      Drains q (batch :: batches) rest

inductive Made : BatchQueue → Prop where
  | ofSize (total size : Nat) : Made (ofSize total size)
  | ofPartitions (batches : List Batch) : Made (ofPartitions batches)
  | popped {q : BatchQueue} (made : Made q) : Made q.pop.2

def popMany (q : BatchQueue) : Nat → BatchQueue
  | 0 => q
  | times + 1 => q.pop.2.popMany times

theorem Lists.hands {q : BatchQueue} {batches : List Batch} (lists : q.Lists batches) :
    q.source.Hands batches := ⟨lists.count, lists.batch⟩

theorem Made.hands {q : BatchQueue} (made : q.Made) : ∃ batches, q.source.Hands batches := by
  induction made with
  | ofSize total size => exact ⟨_, (sizedLists total size).hands⟩
  | ofPartitions batches => exact ⟨batches, rfl, fun _ => rfl⟩
  | popped made ih => exact ih

section Handed
variable {q : BatchQueue} {batches : List Batch}

theorem popHanded (hands : q.source.Hands batches) : q.pop.1 = batches[q.claimed]? :=
  hands.batch q.claimed

theorem drainFromHanded {source : BatchSource} (hands : source.Hands batches) (left index : Nat) :
    drainFrom source left index = (batches.drop index).take left := by
  induction left generalizing index with
  | zero => rfl
  | succ left ih =>
    rw [drainFrom, hands.batch]
    cases found : batches[index]? with
    | none =>
      rw [List.drop_eq_nil_of_le (List.getElem?_eq_none_iff.mp found), List.take_nil]
    | some batch =>
      obtain ⟨inside, rfl⟩ := List.getElem?_eq_some_iff.mp found
      rw [List.drop_eq_getElem_cons inside, List.take_succ_cons, ← ih]

theorem drainHanded (hands : q.source.Hands batches) : q.drain = batches.drop q.claimed := by
  rw [drain, drainFromHanded hands, count, hands.count]
  exact List.take_of_length_le (Nat.le_of_eq List.length_drop)

theorem drainsHanded (hands : q.source.Hands batches) :
    q.Drains (batches.drop q.claimed) (q.popMany ((batches.drop q.claimed).length + 1)) := by
  generalize same : batches.drop q.claimed = rest
  induction rest generalizing q with
  | nil =>
    refine .empty ?_
    rw [popHanded hands]
    exact List.getElem?_eq_none_iff.mpr (List.drop_eq_nil_iff.mp same)
  | cons batch rest ih =>
    have inside : q.claimed < batches.length := by
      apply Nat.not_le.mp
      intro beyond
      rw [List.drop_eq_nil_of_le beyond] at same
      cases same
    rw [List.drop_eq_getElem_cons inside] at same
    obtain ⟨rfl, later⟩ := List.cons.inj same
    refine .next ?_ (ih (q := q.pop.2) hands later)
    rw [popHanded hands]
    exact List.getElem?_eq_getElem inside

theorem popManyHanded (times : Nat) (q : BatchQueue) :
    q.popMany times = { q with claimed := q.claimed + times } := by
  induction times generalizing q with
  | zero => rfl
  | succ times ih =>
    rw [popMany, ih]
    simp only [pop, Nat.add_assoc, Nat.add_comm 1]

theorem popBeyond (hands : q.source.Hands batches) (times : Nat)
    (all : batches.length ≤ q.claimed + times) : (q.popMany times).pop.1 = none := by
  rw [popManyHanded]
  exact (hands.batch _).trans (List.getElem?_eq_none_iff.mpr all)

end Handed

theorem Made.drains {q : BatchQueue} (made : q.Made) :
    ∃ rest, q.Drains q.drain rest ∧ q.drain.length = q.count - q.claimed ∧
      ∀ later, (rest.popMany later).pop.1 = none := by
  obtain ⟨batches, hands⟩ := made.hands
  have drained := drainHanded hands
  have length : q.drain.length = batches.length - q.claimed := by rw [drained, List.length_drop]
  have drains := drainsHanded hands
  rw [← drained, popManyHanded] at drains
  refine ⟨_, drains, length.trans (by rw [count, hands.count]), fun later => ?_⟩
  exact popBeyond (q := ⟨q.source, q.claimed + (q.drain.length + 1)⟩) hands later (by
    rw [length]
    dsimp only
    omega)

end BatchQueue

namespace Batch

def Uncapped (total least concurrency : Nat) : Prop :=
  max (ceilDiv total (max concurrency 1)) least ≤ maxSize

instance (total least concurrency : Nat) : Decidable (Uncapped total least concurrency) :=
  inferInstanceAs (Decidable (_ ≤ _))

theorem sizeForBounds (total least concurrency : Nat) :
    0 < sizeFor total least concurrency ∧ sizeFor total least concurrency ≤ maxSize := by
  have positive : 0 < maxSize := by decide
  unfold sizeFor
  omega

theorem Uncapped.share {total least concurrency : Nat} (uncapped : Uncapped total least concurrency) :
    total ≤ max concurrency 1 * sizeFor total least concurrency := by
  have shared := leMulCeilDiv total (Nat.le_max_right concurrency 1)
  have enough : ceilDiv total (max concurrency 1) ≤ sizeFor total least concurrency := by
    unfold Uncapped at uncapped
    unfold sizeFor
    omega
  exact Nat.le_trans shared (Nat.mul_le_mul_left _ enough)

theorem rangesBound (total size count start : Nat) :
    ∀ batch ∈ rangesFrom total size count start, batch.size ≤ size := by
  intro batch member
  obtain ⟨index, found⟩ := List.getElem?_of_mem member
  rw [rangesGet, Option.ite_none_right_eq_some, Option.some.injEq] at found
  obtain ⟨-, rfl⟩ := found
  exact Nat.min_le_left _ _

theorem rangesEven (total size count start : Nat) :
    ∀ batch ∈ (rangesFrom total size count start).dropLast, batch.size = size := by
  intro batch member
  obtain ⟨index, place⟩ := List.getElem?_of_mem member
  rw [List.getElem?_dropLast, Option.ite_none_right_eq_some] at place
  obtain ⟨early, found⟩ := place
  -- a batch that is not the last one ends where the next begins
  have next := List.getElem?_eq_getElem (show index + 1 < (rangesFrom total size count start).length
    by omega)
  rw [rangesGet, Option.ite_none_right_eq_some] at found next
  obtain ⟨-, same⟩ := found
  obtain ⟨⟨-, inside⟩, -⟩ := next
  rw [← Option.some.inj same]
  rw [Nat.succ_mul] at inside
  exact Nat.min_eq_left (by omega)

end Batch

namespace BatchQueue

theorem consecutiveLists (total least concurrency : Nat) :
    (consecutiveWith total least concurrency).Lists
      (Batch.rangePartition concurrency total least) := by
  have bounds := Batch.sizeForBounds total least concurrency
  have lists := sizedLists total (Batch.sizeFor total least concurrency)
  rwa [Nat.max_eq_left bounds.1, Nat.min_eq_left bounds.2] at lists

/-- Draining a queue of equal batches cuts all elements, from the first to the last, into the ranges of
the partition: as many as announced, each but the last of the size asked for. -/
theorem consecutiveDrains (total least concurrency : Nat) :
    ∃ rest, (consecutiveWith total least concurrency).Drains
        (Batch.rangePartition concurrency total least) rest ∧
      (∀ later, (rest.popMany later).pop.1 = none) ∧
      (consecutiveWith total least concurrency).drain =
        Batch.rangePartition concurrency total least ∧
      (Batch.rangePartition concurrency total least).length =
        (consecutiveWith total least concurrency).count ∧
      Batch.Spans 0 (Batch.rangePartition concurrency total least) total ∧
      (∀ batch ∈ Batch.rangePartition concurrency total least, batch.size ≤ Batch.maxSize) ∧
      (∀ batch ∈ (Batch.rangePartition concurrency total least).dropLast,
        batch.size = Batch.sizeFor total least concurrency) ∧
      (Batch.Uncapped total least concurrency →
        (Batch.rangePartition concurrency total least).length ≤ max concurrency 1) := by
  have bounds := Batch.sizeForBounds total least concurrency
  have lists := consecutiveLists total least concurrency
  have made : (consecutiveWith total least concurrency).Made := .ofSize _ _
  obtain ⟨rest, drains, -, beyond⟩ := made.drains
  have drained : (consecutiveWith total least concurrency).drain =
      Batch.rangePartition concurrency total least := drainHanded lists.hands
  rw [drained] at drains
  refine ⟨rest, drains, beyond, drained, lists.count.symm, Batch.rangesCover total bounds.1, ?_,
    Batch.rangesEven _ _ _ _, fun uncapped => ?_⟩
  · exact fun batch member => Nat.le_trans (Batch.rangesBound _ _ _ _ batch member) bounds.2
  · rw [← lists.count, count, consecutiveWith, ofSize, BatchSource.count,
      Nat.max_eq_left bounds.1, Nat.min_eq_left bounds.2]
    exact ceilDivLe bounds.1 uncapped.share

theorem sampleDrains : Batch.Uncapped 101 1 4 ∧
    (∃ rest, (consecutiveWith 101 1 4).Drains [⟨0, 26⟩, ⟨26, 26⟩, ⟨52, 26⟩, ⟨78, 23⟩] rest ∧
      (rest.popMany 5).pop.1 = none) ∧
    (Batch.rangePartition 4 101 1).length ≤ max 4 1 := by
  have uncapped : Batch.Uncapped 101 1 4 := by decide
  obtain ⟨rest, drains, beyond, -, -, -, -, -, few⟩ := consecutiveDrains 101 1 4
  exact ⟨uncapped, ⟨rest, drains, beyond 5⟩, few uncapped⟩

end BatchQueue
end CommunityGraph
