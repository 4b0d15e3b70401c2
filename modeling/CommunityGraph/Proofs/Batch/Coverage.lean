import Mathlib.Data.List.Basic
import CommunityGraph.Proofs.Run

/-! Batches that follow each other without a gap. Queues of such batches take every element once and in
order, so what work on a batch adds for its elements is added for all elements in the end. -/
namespace CommunityGraph

namespace Batch

inductive Spans : Nat → List Batch → Nat → Prop where
  | nil (start : Nat) : Spans start [] start
  | cons {start stop : Nat} {batch : Batch} {batches : List Batch} (starts : batch.start = start)
      (some : 0 < batch.size) (rest : Spans batch.stop batches stop) :
      Spans start (batch :: batches) stop

theorem Spans.le {start stop : Nat} {batches : List Batch} (spans : Spans start batches stop) :
    start ≤ stop := by
  induction spans with
  | nil => exact Nat.le_refl _
  | cons starts _ _ ih =>
    rw [Batch.stop] at ih
    omega

theorem Spans.elements {start stop : Nat} {batches : List Batch}
    (spans : Spans start batches stop) :
    batches.flatMap Batch.elements = List.range' start (stop - start) := by
  induction spans with
  | nil => simp
  | @cons start stop batch batches starts _ rest ih =>
    have le := rest.le
    rw [List.flatMap_cons, ih]
    unfold Batch.stop at le ⊢
    subst starts
    have whole : stop - batch.start = batch.size + (stop - (batch.start + batch.size)) := by omega
    rw [whole, List.range'_append_1.symm]
    rfl

theorem rangesSpan {total size count start : Nat} (some : 0 < size) (inside : start ≤ total)
    (enough : total ≤ start + count * size) :
    Spans start (rangesFrom total size count start) total := by
  induction count generalizing start with
  | zero =>
    obtain rfl : start = total := by omega
    exact .nil _
  | succ count ih =>
    rw [rangesFrom]
    split
    · rename_i less
      refine .cons rfl (by simp only; omega) ?_
      unfold Batch.stop
      dsimp only
      rcases Nat.le_total size (total - start) with short | long
      · rw [Nat.min_eq_left short]
        exact ih (by omega) (by rw [Nat.succ_mul] at enough; omega)
      · rw [Nat.min_eq_right long, Nat.add_sub_cancel' inside]
        have last : rangesFrom total size count (start + size) = [] := by
          cases count with
          | zero => rfl
          | succ count => rw [rangesFrom, if_neg (by omega)]
        rw [last]
        exact .nil _
    · obtain rfl : start = total := by omega
      exact .nil _

def ranges (total size : Nat) : List Batch := rangesFrom total size (ceilDiv total size) 0

theorem rangesCover (total : Nat) {size : Nat} (some : 0 < size) :
    Spans 0 (ranges total size) total := by
  refine rangesSpan some (Nat.zero_le _) ?_
  rw [Nat.zero_add, Nat.mul_comm]
  exact leMulCeilDiv total some

theorem rangesGet (total size count start index : Nat) :
    (rangesFrom total size count start)[index]? =
      if index < count ∧ start + index * size < total then
        some ⟨start + index * size, min size (total - (start + index * size))⟩
      else none := by
  induction count generalizing start index with
  | zero => simp [rangesFrom]
  | succ count ih =>
    rw [rangesFrom]
    split
    · rename_i less
      cases index with
      | zero => simp [less]
      | succ index =>
        have place : start + size + index * size = start + (index + 1) * size := by
          rw [Nat.succ_mul]
          omega
        simp [ih, place]
    · rename_i beyond
      have none : ¬ start + index * size < total := by omega
      simp [none]

theorem rangesLength {total size count start : Nat}
    (all : ∀ index < count, start + index * size < total) :
    (rangesFrom total size count start).length = count := by
  induction count generalizing start with
  | zero => rfl
  | succ count ih =>
    have less := all 0 (Nat.succ_pos _)
    rw [rangesFrom, if_pos (by omega), List.length_cons, ih]
    intro index small
    have next := all (index + 1) (by omega)
    rw [Nat.succ_mul] at next
    omega

theorem degreeRangesSpan (degree : Nat → UInt64) (target left node start : Nat) (volume : UInt64)
    (inside : start ≤ node) :
    Spans start (degreeRanges degree target left node start volume) (node + left) := by
  induction left generalizing node start volume with
  | zero =>
    rw [degreeRanges]
    split
    · rename_i open_
      refine .cons rfl (by simp only; omega) ?_
      unfold Batch.stop
      dsimp only
      rw [Nat.add_sub_cancel' inside]
      exact .nil _
    · obtain rfl : start = node := by omega
      exact .nil _
  | succ left ih =>
    have later : node + (left + 1) = node + 1 + left := by omega
    rw [degreeRanges, later]
    split
    · refine .cons rfl (by simp only; omega) ?_
      unfold Batch.stop
      dsimp only
      rw [Nat.add_sub_cancel' (by omega : start ≤ node + 1)]
      exact ih (node + 1) (node + 1) 0 (Nat.le_refl _)
    · exact ih (node + 1) start _ (by omega)

end Batch

namespace BatchQueue
variable {σ : Type}

structure Lists (q : BatchQueue) (batches : List Batch) : Prop where
  fresh : q.claimed = 0
  count : q.count = batches.length
  batch : ∀ index, q.source.batch? index = batches[index]?

def Covers (q : BatchQueue) (total : Nat) : Prop :=
  ∃ batches, q.Lists batches ∧ Batch.Spans 0 batches total

theorem partitionsCover {batches : List Batch} {total : Nat} (spans : Batch.Spans 0 batches total) :
    (ofPartitions batches).Covers total :=
  ⟨batches, ⟨rfl, rfl, fun _ => rfl⟩, spans⟩

theorem sizedLists (total size : Nat) :
    (ofSize total size).Lists (Batch.ranges total (min (max size 1) Batch.maxSize)) := by
  let step := min (max size 1) Batch.maxSize
  have positive : 0 < step := Nat.lt_min.mpr ⟨by omega, by decide⟩
  have inside := ltCeilDiv positive total
  refine ⟨rfl, (Batch.rangesLength fun index less => ?_).symm, fun index => ?_⟩
  · rw [Nat.zero_add]
    exact (inside index).mp less
  · rw [Batch.ranges, Batch.rangesGet, Nat.zero_add]
    simp only [ofSize, BatchSource.batch?, inside, and_self, step]

theorem sizedCovers (total size : Nat) : (ofSize total size).Covers total :=
  ⟨_, sizedLists total size, Batch.rangesCover total (Nat.lt_min.mpr ⟨by omega, by decide⟩)⟩

theorem consecutiveCovers (total least concurrency : Nat) :
    (consecutiveWith total least concurrency).Covers total :=
  sizedCovers _ _

theorem workCongr {source source' : BatchSource}
    (same : ∀ index, source.batch? index = source'.batch? index) (action : Action σ)
    (left index : Nat) (state : σ) (t : Termination) (j : Journal) :
    work source action left index state t j = work source' action left index state t j := by
  induction left generalizing index state j with
  | zero =>
    unfold work
    rfl
  | succ left ih =>
    unfold work
    simp only [same, ih]

theorem Lists.consume {q : BatchQueue} {batches : List Batch} (lists : q.Lists batches)
    (concurrency : Nat) (action : Action σ) (state : σ) (t : Termination) (j : Journal) :
    q.consume concurrency action state t j =
      (ofPartitions batches).consume concurrency action state t j := by
  have same := @workCongr σ q.source (.partitions batches) lists.batch action
  simp only [BatchQueue.consume, lists.fresh, lists.count, same]
  rfl

def Adds (action : Action σ) (Invariant : List Nat → σ → Prop) (Failure : EngineError → Prop) :
    Prop :=
  ∀ (batch : Batch) (before : List Nat) (state : σ) (t : Termination) (j : Journal),
    Invariant before state →
    match (action batch state t j).1 with
    | (.ok (), after) => Invariant (before ++ batch.elements) after
    | (.error e, _) => Failure e

theorem Covers.ends {q : BatchQueue} {total : Nat} (covers : q.Covers total) {action : Action σ}
    {Invariant : List Nat → σ → Prop} {Failure : EngineError → Prop}
    (adds : Adds action Invariant Failure) (concurrency : Nat) {state : σ}
    (holds : Invariant [] state) (t : Termination) :
    Run.Ends t Failure (Invariant (List.range total)) (q.consumeAll concurrency action state) := by
  obtain ⟨batches, lists, spans⟩ := covers
  have keeps : Keeps batches action
      (fun index state => Invariant ((batches.take index).flatMap Batch.elements) state)
      Failure := by
    intro index batch state t j found holds
    have next : (batches.take (index + 1)).flatMap Batch.elements =
        (batches.take index).flatMap Batch.elements ++ batch.elements := by
      simp [List.take_add_one, found]
    simp only [next]
    exact adds batch _ state t j holds
  intro j
  have ended := consumeEnds keeps concurrency (by simpa using holds) t j
  rw [List.take_length, spans.elements, Nat.sub_zero, ← List.range_eq_range'] at ended
  unfold consumeAll
  rw [lists.consume]
  generalize (ofPartitions batches).consume concurrency action state t j = answer at ended
  obtain ⟨⟨outcome, after⟩, later⟩ := answer
  cases ended with
  | done reached => exact reached
  | stopped stops => exact .inl ⟨rfl, stops⟩
  | failed failure => exact .inr failure

end BatchQueue
end CommunityGraph
