import CommunityGraph.Proofs.SlotPool
import CommunityGraph.Proofs.Staging.LocalBuffer

/-! The slots of a builder go round. Each holds back entries for the lists and, with an inverse index,
for the inverse lists, and both kinds follow a schedule of their own. -/
namespace CommunityGraph.BuilderSlot
open StagedEntry AdjacencyBuffer LocalBuffer
variable {α : Type}

def holdingBoth (capacity count : Nat) (inverted : Bool)
    (pending : List (StagedEntry α) × List (StagedEntry α)) : BuilderSlot α :=
  ⟨holding capacity count pending.1,
    if inverted then some (holding capacity count pending.2) else none⟩

def InverseHolds (nodeCount count : Nat) (inverted : Bool) (delivered : List (StagedEntry α))
    (lists : Option (AdjacencyBuffer α)) : Prop :=
  if inverted then ∃ b, lists = some b ∧ Holds nodeCount count delivered b else lists = none

variable {nodeCount capacity count : Nat} {inverted : Bool}
  {forward inverse deliveredForward deliveredInverse : List (StagedEntry α)}
  {staged : StagedLists α}

theorem InverseHolds.unique {delivered : List (StagedEntry α)}
    {lists lists' : Option (AdjacencyBuffer α)}
    (one : InverseHolds nodeCount count inverted delivered lists)
    (other : InverseHolds nodeCount count inverted delivered lists') : lists = lists' := by
  unfold InverseHolds at one other
  split at one
  · rename_i indexed
    rw [if_pos indexed] at other
    obtain ⟨b, rfl, holds⟩ := one
    obtain ⟨b', rfl, holds'⟩ := other
    rw [holds.unique holds']
  · rename_i plain
    rw [if_neg plain] at other
    rw [one, other]

theorem insertHolds (capacity : Nat) {orientation : Orientation} {source target : Nat}
    {values : List α}
    (lists : Holds nodeCount count deliveredForward staged.forward)
    (inverseLists : InverseHolds nodeCount count inverted deliveredInverse staged.inverse)
    (full : Full count (forward ++ entries orientation source target values))
    (inverseFull : Full count (inverse ++ [inverseEntry orientation source target values])) :
    ∃ after, insert orientation source target values
        (holdingBoth capacity count inverted (forward, inverse)) staged =
      (holdingBoth capacity count inverted
        ((Schedule.hold capacity forward (entries orientation source target values)).2,
          (Schedule.hold capacity inverse
            [inverseEntry orientation source target values]).2), after) ∧
      Holds nodeCount count (deliveredForward ++
        (Schedule.hold capacity forward (entries orientation source target values)).1)
        after.forward ∧
      InverseHolds nodeCount count inverted (deliveredInverse ++
        (Schedule.hold capacity inverse [inverseEntry orientation source target values]).1)
        after.inverse := by
  obtain ⟨lists', inverseLists'⟩ := staged
  obtain ⟨after, same, holds⟩ := addAllHolds capacity lists full
  cases inverted with
  | false =>
    obtain rfl : inverseLists' = none := by simpa [InverseHolds] using inverseLists
    refine ⟨⟨after, none⟩, ?_, holds, by simp [InverseHolds]⟩
    simp [insert, holdingBoth, same]
  | true =>
    obtain ⟨b, rfl, inverseHeld⟩ : ∃ b, inverseLists' = some b ∧
        Holds nodeCount count deliveredInverse b := by simpa [InverseHolds] using inverseLists
    obtain ⟨inverseAfter, inverseSame, inverseHolds⟩ :=
      addAllHolds capacity inverseHeld inverseFull
    refine ⟨⟨after, some inverseAfter⟩, ?_, holds, by simpa [InverseHolds] using inverseHolds⟩
    rw [addAllOne] at inverseSame
    simp [insert, holdingBoth, same, inverseSame]

theorem flushBothHolds (capacity : Nat)
    (lists : Holds nodeCount count deliveredForward staged.forward)
    (inverseLists : InverseHolds nodeCount count inverted deliveredInverse staged.inverse)
    (full : Full count forward) (inverseFull : Full count inverse) :
    Holds nodeCount count (deliveredForward ++ forward)
        (flush (holdingBoth capacity count inverted (forward, inverse)) staged).2.forward ∧
      InverseHolds nodeCount count inverted (deliveredInverse ++ inverse)
        (flush (holdingBoth capacity count inverted (forward, inverse)) staged).2.inverse := by
  obtain ⟨lists', inverseLists'⟩ := staged
  obtain ⟨after, same, holds⟩ := flushHolds capacity lists full
  cases inverted with
  | false =>
    obtain rfl : inverseLists' = none := by simpa [InverseHolds] using inverseLists
    simpa [flush, holdingBoth, same, InverseHolds] using holds
  | true =>
    obtain ⟨b, rfl, inverseHeld⟩ : ∃ b, inverseLists' = some b ∧
        Holds nodeCount count deliveredInverse b := by simpa [InverseHolds] using inverseLists
    obtain ⟨inverseAfter, inverseSame, inverseHolds⟩ := flushHolds capacity inverseHeld inverseFull
    simpa [flush, holdingBoth, same, inverseSame, InverseHolds] using ⟨holds, inverseHolds⟩

end CommunityGraph.BuilderSlot
