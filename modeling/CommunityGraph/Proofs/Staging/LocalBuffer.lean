import CommunityGraph.Builder
import CommunityGraph.Proofs.Staging.AdjacencyBuffer
import CommunityGraph.Proofs.Staging.Schedule

/-! A local buffer holds entries back and lets them go as the schedule says. The sort by source that
comes with a flush is not seen in the list of any node. -/
namespace CommunityGraph
variable {α : Type}

namespace LocalBuffer
open StagedEntry AdjacencyBuffer

def holding (capacity count : Nat) (pending : List (StagedEntry α)) : LocalBuffer α :=
  ⟨capacity, count, pending.length, pending.reverse⟩

theorem makeHolding (capacity count : Nat) :
    make capacity count = (holding (max capacity 1) count [] : LocalBuffer α) := rfl

theorem sortedHolding (capacity count : Nat) (pending : List (StagedEntry α)) :
    (holding capacity count pending).sorted = bySource pending := by
  simp [sorted, holding, bySource]

variable {nodeCount capacity count : Nat} {pending delivered : List (StagedEntry α)}
  {b : AdjacencyBuffer α}

theorem pushHolding {entry : StagedEntry α} (full : entry.values.length = count) :
    (holding capacity count pending).push entry = holding capacity count (pending ++ [entry]) := by
  have whole : entry.values.take count = entry.values := by simp [← full]
  simp [push, holding, whole]

theorem addHolding (capacity : Nat) (pending : List (StagedEntry α)) (b : AdjacencyBuffer α)
    {entry : StagedEntry α} (full : entry.values.length = count) :
    (holding capacity count pending).add entry b =
      if capacity ≤ pending.length + 1 then (holding capacity count (pending ++ [entry])).flush b
      else (holding capacity count (pending ++ [entry]), b) := by
  have length : pending.length + 1 = (pending ++ [entry]).length := by simp
  rw [LocalBuffer.add, pushHolding full, length]
  rfl

theorem flushHolds (capacity : Nat) (holds : Holds nodeCount count delivered b)
    (full : Full count pending) :
    ∃ after, (holding capacity count pending).flush b = (holding capacity count [], after) ∧
      Holds nodeCount count (delivered ++ pending) after := by
  have sortedFull : Full count (bySource pending) :=
    fun entry member => full entry ((bySourcePerm pending).mem_iff.mp member)
  refine ⟨b.addAll (bySource pending), ?_, (holds.addAll sortedFull).congr fun node => ?_⟩
  · rw [flush, sortedHolding]
    rfl
  · rw [rowsOfAppend, rowsOfAppend, rowsOfBySource]

end LocalBuffer

namespace StagedEntry.Full
variable {count : Nat} {xs ys : List (StagedEntry α)}

theorem append (left : Full count xs) (right : Full count ys) : Full count (xs ++ ys) := by
  intro entry member
  rcases List.mem_append.mp member with inside | inside
  · exact left entry inside
  · exact right entry inside

theorem left (full : Full count (xs ++ ys)) : Full count xs :=
  fun entry member => full entry (List.mem_append_left _ member)

theorem right (full : Full count (xs ++ ys)) : Full count ys :=
  fun entry member => full entry (List.mem_append_right _ member)

end StagedEntry.Full

namespace BuilderSlot
open StagedEntry AdjacencyBuffer LocalBuffer
variable {nodeCount capacity count : Nat} {pending delivered : List (StagedEntry α)}
  {b : AdjacencyBuffer α}

theorem addAllOne (l : LocalBuffer α) (b : AdjacencyBuffer α) (entry : StagedEntry α) :
    addAll l b [entry] = l.add entry b := rfl

theorem addAllHolds (capacity : Nat) {entries : List (StagedEntry α)}
    (holds : Holds nodeCount count delivered b) (full : Full count (pending ++ entries)) :
    ∃ after, addAll (holding capacity count pending) b entries =
        (holding capacity count (Schedule.hold capacity pending entries).2, after) ∧
      Holds nodeCount count (delivered ++ (Schedule.hold capacity pending entries).1) after := by
  induction entries generalizing pending delivered b with
  | nil => exact ⟨b, rfl, by simpa [Schedule.hold] using holds⟩
  | cons entry entries ih =>
    have width : entry.values.length = count := full entry (by simp)
    rw [List.append_cons] at full
    have taken := addHolding capacity pending b width
    by_cases reached : capacity ≤ pending.length + 1
    · obtain ⟨flushed, same, further⟩ := flushHolds capacity holds full.left
      have rest : Full count ([] ++ entries) := full.right
      obtain ⟨after, more, last⟩ := ih further rest
      rw [if_pos reached, same] at taken
      refine ⟨after, by simp only [addAll, taken, more, Schedule.hold, reached, if_true], ?_⟩
      simpa only [Schedule.hold, reached, if_true, List.append_assoc, List.singleton_append]
        using last
    · obtain ⟨after, more, last⟩ := ih holds full
      rw [if_neg reached] at taken
      refine ⟨after, by simp only [addAll, taken, more, Schedule.hold, reached, if_false], ?_⟩
      simpa only [Schedule.hold, reached, if_false] using last

end BuilderSlot
end CommunityGraph
