import Mathlib
import CommunityGraph.Proofs.Batch.Draining

/-! Ranges of nodes by the relationships in them. Each is closed at the first node with which its degrees
reach the share that was asked for, so only the last can be light, and there are few of them. The degrees
are added up as words: a range is what it should be as long as its sum is one. -/
namespace CommunityGraph.Batch
variable {target : Nat}

section Weights
variable {weight : Nat → Nat}

def volume (weight : Nat → Nat) (b : Batch) : Nat := (b.elements.map weight).sum

def withoutLast (b : Batch) : Batch := ⟨b.start, b.size - 1⟩

/-- Ranges that are each closed as soon as they are heavy enough; the last may be left open. -/
inductive Greedy (weight : Nat → Nat) (target : Nat) : List Batch → Prop where
  | none : Greedy weight target []
  | left (b : Batch) (light : b.withoutLast.volume weight < target) : Greedy weight target [b]
  | closed (b : Batch) {batches : List Batch} (heavy : target ≤ b.volume weight)
      (light : b.withoutLast.volume weight < target) (rest : Greedy weight target batches) :
      Greedy weight target (b :: batches)

theorem volumeNext (weight : Nat → Nat) {start node : Nat} (before : start ≤ node) :
    volume weight ⟨start, node + 1 - start⟩ = volume weight ⟨start, node - start⟩ + weight node := by
  have size : node + 1 - start = node - start + 1 := by omega
  have last : start + (node - start) = node := by omega
  simp only [volume, elements, size, List.range'_1_concat, last, List.map_append, List.map_cons,
    List.map_nil, List.sum_append, List.sum_cons, List.sum_nil, Nat.add_zero]

theorem volumeLast (weight : Nat → Nat) {b : Batch} (some : 0 < b.size) :
    b.volume weight = b.withoutLast.volume weight + weight (b.stop - 1) := by
  obtain ⟨start, size⟩ := b
  obtain ⟨size, rfl⟩ := Nat.exists_eq_succ_of_ne_zero (Nat.ne_of_gt some)
  have next := volumeNext weight (Nat.le_add_right start size)
  rwa [Nat.add_assoc, Nat.add_sub_cancel_left, Nat.add_sub_cancel_left] at next

theorem volumeWithoutLast (weight : Nat → Nat) (b : Batch) :
    b.withoutLast.volume weight ≤ b.volume weight := by
  rcases Nat.eq_zero_or_pos b.size with empty | some
  · obtain ⟨start, size⟩ := b
    obtain rfl : size = 0 := empty
    exact Nat.le_refl _
  · rw [volumeLast weight some]
    exact Nat.le_add_right _ _

theorem volumeGrows (weight : Nat → Nat) (start : Nat) {size more : Nat} (grows : size ≤ more) :
    volume weight ⟨start, size⟩ ≤ volume weight ⟨start, more⟩ := by
  induction more, grows using Nat.le_induction with
  | base => exact Nat.le_refl _
  | succ more _ ih =>
    have next := volumeNext weight (Nat.le_add_right start more)
    rw [Nat.add_assoc, Nat.add_sub_cancel_left, Nat.add_sub_cancel_left] at next
    omega

theorem Greedy.heavy {batches : List Batch} (greedy : Greedy weight target batches) :
    ∀ b ∈ batches.dropLast, target ≤ b.volume weight := by
  induction greedy with
  | none => simp
  | left => simp
  | @closed b batches heavy _ _ ih =>
    intro other member
    cases batches with
    | nil => simp at member
    | cons next batches =>
      rw [List.dropLast_cons_cons] at member
      rcases List.mem_cons.mp member with rfl | later
      · exact heavy
      · exact ih other later

theorem Greedy.light {batches : List Batch} (greedy : Greedy weight target batches) :
    ∀ b ∈ batches, b.withoutLast.volume weight < target := by
  induction greedy with
  | none => simp
  | left b light => simpa using light
  | closed b _ light _ ih =>
    intro other member
    rcases List.mem_cons.mp member with rfl | later
    · exact light
    · exact ih other later

theorem Greedy.weighs {batches : List Batch} (greedy : Greedy weight target batches) :
    batches.length * target ≤ (batches.map (volume weight)).sum + target := by
  induction greedy with
  | none => simp
  | left b _ => simp
  | @closed b batches heavy _ _ ih =>
    rw [List.length_cons, Nat.succ_mul, List.map_cons, List.sum_cons]
    omega

theorem volumesSum (weight : Nat → Nat) (batches : List Batch) :
    (batches.map (volume weight)).sum = ((batches.flatMap elements).map weight).sum := by
  induction batches with
  | nil => rfl
  | cons b batches ih =>
    rw [List.map_cons, List.sum_cons, ih, List.flatMap_cons, List.map_append, List.sum_append]
    rfl

end Weights

section Degrees
variable {degree : Nat → UInt64}

def weigh (degree : Nat → UInt64) (node : Nat) : Nat := (degree node).toNat

theorem degreeRangesOpen (degree : Nat → UInt64) (target left : Nat) {node start : Nat}
    (started : start < node) (volume : UInt64) :
    ∃ size batches, degreeRanges degree target left node start volume = ⟨start, size⟩ :: batches ∧
      node - start ≤ size := by
  induction left generalizing node volume with
  | zero => exact ⟨node - start, [], by rw [degreeRanges, if_pos started], Nat.le_refl _⟩
  | succ left ih =>
    rw [degreeRanges]
    split
    · exact ⟨_, _, rfl, by omega⟩
    · obtain ⟨size, batches, ranges, more⟩ := ih (Nat.lt_succ_of_lt started) (volume + degree node)
      exact ⟨size, batches, ranges, by omega⟩

def Fits (degree : Nat → UInt64) (batches : List Batch) : Prop :=
  ∀ b ∈ batches, b.volume (weigh degree) < UInt64.size

theorem sumFresh (degree : Nat → UInt64) (node : Nat) :
    (0 : UInt64).toNat = volume (weigh degree) ⟨node, node - node⟩ := by
  rw [Nat.sub_self]
  rfl

theorem sumNext {node start : Nat} {sum : UInt64} (before : start ≤ node)
    (summed : sum.toNat = volume (weigh degree) ⟨start, node - start⟩)
    (whole : volume (weigh degree) ⟨start, node + 1 - start⟩ < UInt64.size) :
    (sum + degree node).toNat = volume (weigh degree) ⟨start, node + 1 - start⟩ := by
  rw [volumeNext _ before, ← summed] at whole ⊢
  rw [UInt64.toNat_add]
  exact Nat.mod_eq_of_lt whole

theorem degreeRangesGreedy {left node start : Nat} {sum : UInt64} (before : start ≤ node)
    (summed : sum.toNat = volume (weigh degree) ⟨start, node - start⟩) (light : sum.toNat < target)
    (fits : Fits degree (degreeRanges degree target left node start sum)) :
    Greedy (weigh degree) target (degreeRanges degree target left node start sum) := by
  induction left generalizing node start sum with
  | zero =>
    rw [degreeRanges]
    split
    · exact .left _ (Nat.lt_of_le_of_lt (volumeWithoutLast (weigh degree) _) (summed ▸ light))
    · exact .none
  | succ left ih =>
    -- The range that the node falls into holds at least the degrees up to it.
    have whole : volume (weigh degree) ⟨start, node + 1 - start⟩ < UInt64.size := by
      rw [degreeRanges] at fits
      split at fits
      · exact fits _ (by simp)
      · obtain ⟨size, batches, ranges, more⟩ := degreeRangesOpen degree target left
          (Nat.lt_succ_of_le before) (sum + degree node)
        rw [ranges] at fits
        exact Nat.lt_of_le_of_lt (volumeGrows (weigh degree) start more) (fits _ (by simp))
    have added := sumNext before summed whole
    rw [degreeRanges] at fits ⊢
    split at fits
    · rename_i heavy
      rw [if_pos heavy]
      have size : node + 1 - start - 1 = node - start := by omega
      have later : Fits degree (degreeRanges degree target left (node + 1) (node + 1) 0) :=
        fun b member => fits b (List.mem_cons_of_mem _ member)
      refine .closed _ (added ▸ heavy) ?_ (ih (Nat.le_refl _) (sumFresh degree (node + 1))
        (Nat.lt_of_le_of_lt (Nat.zero_le _) light) later)
      rw [withoutLast, size, ← summed]
      exact light
    · rename_i open_
      rw [if_neg open_]
      exact ih (by omega) added (Nat.not_le.mp open_) fits

theorem degreeRangesFits {left node start : Nat} {sum : UInt64} (before : start ≤ node)
    (summed : sum.toNat = volume (weigh degree) ⟨start, node - start⟩) (light : sum.toNat < target)
    (room : ∀ n, n < node + left → (degree n).toNat + target ≤ UInt64.size) :
    Fits degree (degreeRanges degree target left node start sum) := by
  induction left generalizing node start sum with
  | zero =>
    rw [degreeRanges]
    split
    · intro b member
      rw [List.mem_singleton.mp member, ← summed]
      exact sum.toNat_lt
    · intro b member
      cases member
  | succ left ih =>
    have whole : volume (weigh degree) ⟨start, node + 1 - start⟩ < UInt64.size := by
      have last : weigh degree node + target ≤ UInt64.size := room node (by omega)
      rw [volumeNext _ before, ← summed]
      omega
    have added := sumNext before summed whole
    have later : ∀ n, n < node + 1 + left → (degree n).toNat + target ≤ UInt64.size :=
      fun n small => room n (by omega)
    rw [degreeRanges]
    split
    · intro b member
      rcases List.mem_cons.mp member with rfl | further
      · exact whole
      · exact ih (Nat.le_refl _) (sumFresh degree (node + 1))
          (Nat.lt_of_le_of_lt (Nat.zero_le _) light) later b further
    · rename_i open_
      exact ih (by omega) added (Nat.not_le.mp open_) later

theorem degreePartitionSpan (nodeCount relationshipCount : Nat) (degree : Nat → UInt64)
    (concurrency least : Nat) :
    Spans 0 (degreePartition nodeCount relationshipCount degree concurrency least) nodeCount := by
  have spans := degreeRangesSpan degree (sizeFor relationshipCount least concurrency) nodeCount 0 0 0
    (Nat.le_refl _)
  rwa [Nat.zero_add] at spans

theorem degreePartitionVolume (nodeCount relationshipCount : Nat) (degree : Nat → UInt64)
    (concurrency least : Nat) :
    ((degreePartition nodeCount relationshipCount degree concurrency least).map
      (volume (weigh degree))).sum = ((List.range nodeCount).map (weigh degree)).sum := by
  rw [volumesSum, (degreePartitionSpan nodeCount relationshipCount degree concurrency least).elements,
    Nat.sub_zero, ← List.range_eq_range']

theorem degreePartitionGreedy {nodeCount relationshipCount concurrency least : Nat}
    (fits : Fits degree (degreePartition nodeCount relationshipCount degree concurrency least)) :
    Greedy (weigh degree) (sizeFor relationshipCount least concurrency)
      (degreePartition nodeCount relationshipCount degree concurrency least) :=
  degreeRangesGreedy (Nat.le_refl _) rfl (sizeForBounds relationshipCount least concurrency).1 fits

theorem degreePartitionFits {nodeCount : Nat}
    (room : ∀ n < nodeCount, (degree n).toNat + maxSize ≤ UInt64.size)
    (relationshipCount concurrency least : Nat) :
    Fits degree (degreePartition nodeCount relationshipCount degree concurrency least) := by
  have share := sizeForBounds relationshipCount least concurrency
  refine degreeRangesFits (Nat.le_refl _) rfl share.1 fun n small => ?_
  have degreeRoom := room n (by omega)
  have capped := share.2
  omega

theorem degreePartitionTotal {nodeCount : Nat}
    (total : ((List.range nodeCount).map (weigh degree)).sum < UInt64.size)
    (relationshipCount concurrency least : Nat) :
    Fits degree (degreePartition nodeCount relationshipCount degree concurrency least) := by
  intro b member
  rw [← degreePartitionVolume nodeCount relationshipCount degree concurrency least] at total
  exact Nat.lt_of_le_of_lt (List.le_sum_of_mem (List.mem_map_of_mem member)) total

/-- The parts cover all nodes in order. None could have been closed earlier and all but the last have
their share of the relationships, as long as the degrees of each make a word. There is at most one part
more than workers. -/
theorem degreesPartitioned (nodeCount : Nat) (relationshipCount : UInt64) (degree : Nat → UInt64)
    (concurrency least : Nat) :
    let target := sizeFor relationshipCount.toNat least concurrency
    let parts := degreePartition nodeCount relationshipCount.toNat degree concurrency least
    Spans 0 parts nodeCount ∧
      (Fits degree parts → (∀ b ∈ parts.dropLast, target ≤ b.volume (weigh degree)) ∧
        ∀ b ∈ parts, b.withoutLast.volume (weigh degree) < target) ∧
      ((∀ n < nodeCount, (degree n).toNat + maxSize ≤ UInt64.size) → Fits degree parts) ∧
      (((List.range nodeCount).map (weigh degree)).sum ≤ relationshipCount.toNat →
        Fits degree parts ∧ (Uncapped relationshipCount.toNat least concurrency →
          parts.length ≤ max concurrency 1 + 1)) := by
  intro target parts
  have positive : 0 < target := (sizeForBounds relationshipCount.toNat least concurrency).1
  refine ⟨degreePartitionSpan _ _ _ _ _, fun fits => ?_, fun room => degreePartitionFits room _ _ _,
    fun few => ?_⟩
  · have greedy := degreePartitionGreedy fits
    exact ⟨greedy.heavy, greedy.light⟩
  · have fits : Fits degree parts :=
      degreePartitionTotal (Nat.lt_of_le_of_lt few relationshipCount.toNat_lt) _ _ _
    refine ⟨fits, fun uncapped => ?_⟩
    have whole : (parts.map (volume (weigh degree))).sum ≤ relationshipCount.toNat := by
      rw [degreePartitionVolume]
      exact few
    have most : parts.length * target ≤ (max concurrency 1 + 1) * target :=
      calc parts.length * target ≤ (parts.map (volume (weigh degree))).sum + target :=
            (degreePartitionGreedy fits).weighs
        _ ≤ max concurrency 1 * target + target :=
            Nat.add_le_add_right (Nat.le_trans whole uncapped.share) _
        _ = (max concurrency 1 + 1) * target := (Nat.succ_mul _ _).symm
    exact Nat.le_of_mul_le_mul_right most positive

def loneDegree (node : Nat) : UInt64 := if node = 0 then 1 else 0

theorem samplePartitioned :
    ((List.range 2).map (weigh loneDegree)).sum ≤ (1 : UInt64).toNat ∧ Uncapped 1 0 3 ∧
      Fits loneDegree (degreePartition 2 1 loneDegree 3 0) ∧
      (∀ b ∈ degreePartition 2 1 loneDegree 3 0, b.withoutLast.volume (weigh loneDegree) < 1) ∧
      (degreePartition 2 1 loneDegree 3 0).length ≤ max 3 1 + 1 := by
  have few : ((List.range 2).map (weigh loneDegree)).sum ≤ (1 : UInt64).toNat := by decide
  have uncapped : Uncapped 1 0 3 := by decide
  have partitioned := degreesPartitioned 2 1 loneDegree 3 0
  obtain ⟨fits, bounded⟩ := partitioned.2.2.2 few
  exact ⟨few, uncapped, fits, (partitioned.2.1 fits).2, bounded uncapped⟩

def wrappingDegree (node : Nat) : UInt64 := if node = 0 then 1 else if node = 1 then 0 - 1 else 0

/-- Without any worker the share is that of one, and a part can be left over all the same. And where a sum
leaves the words, a part goes on that could have been closed. -/
theorem workerlessPartition :
    (¬ ∀ (nodeCount relationshipCount : Nat) (degree : Nat → UInt64) (concurrency least : Nat),
      ((List.range nodeCount).map (weigh degree)).sum ≤ relationshipCount →
      Uncapped relationshipCount least concurrency →
      (degreePartition nodeCount relationshipCount degree concurrency least).length ≤
        concurrency + 1) ∧
    ¬ ∀ (nodeCount relationshipCount : Nat) (degree : Nat → UInt64) (concurrency least : Nat),
      ∀ b ∈ degreePartition nodeCount relationshipCount degree concurrency least,
        b.withoutLast.volume (weigh degree) < sizeFor relationshipCount least concurrency := by
  refine ⟨fun bounded => ?_, fun light => ?_⟩
  · have short := bounded 2 1 loneDegree 0 0 (by decide) (by decide)
    have parts : degreePartition 2 1 loneDegree 0 0 = [⟨0, 1⟩, ⟨1, 1⟩] := by decide
    rw [parts] at short
    exact absurd short (by decide)
  · have whole : degreePartition 3 10 wrappingDegree 1 1 = [⟨0, 3⟩] := by decide
    have below := light 3 10 wrappingDegree 1 1 ⟨0, 3⟩ (by rw [whole]; simp)
    exact absurd below (by decide)

end Degrees
end CommunityGraph.Batch
