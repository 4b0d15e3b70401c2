import CommunityGraph.Proofs.Builder.Slots

/-! What a builder has staged after any calls is what the schedule says of the relationships that it
took; calls that it did not take leave no trace in its lists. -/
namespace CommunityGraph
variable {α : Type}

structure Link (α : Type) where
  source : Nat
  target : Nat
  values : List α
  deriving DecidableEq, Repr

namespace Link

def entries (orientation : Orientation) (link : Link α) : List (StagedEntry α) :=
  BuilderSlot.entries orientation link.source link.target link.values

def inverseEntries (orientation : Orientation) (link : Link α) : List (StagedEntry α) :=
  [BuilderSlot.inverseEntry orientation link.source link.target link.values]

end Link

inductive Addition (α : Type) where
  | plain (source target : Int)
  | valued (source target : Int) (values : List α)
  | internal (source target : Nat) (values : List α)

namespace Builder
open StagedEntry AdjacencyBuffer BuilderSlot

structure Staged (nodeCount count capacity : Nat) (inverted : Bool)
    (forward inverse : Schedule.State (StagedEntry α)) (slots : SlotPool (BuilderSlot α))
    (staged : StagedLists α) : Prop where
  queue : ∃ waiting : List (List (StagedEntry α) × List (StagedEntry α)),
    slots.Queue (waiting.map (holdingBoth capacity count inverted)) ∧
    forward.waiting = waiting.map Prod.fst ∧ inverse.waiting = waiting.map Prod.snd
  full : Full count forward.drained
  inverseFull : Full count inverse.drained
  lists : Holds nodeCount count forward.delivered staged.forward
  inverseLists : InverseHolds nodeCount count inverted inverse.delivered staged.inverse

variable {nodeCount count capacity : Nat} {inverted : Bool}
  {forward inverse : Schedule.State (StagedEntry α)} {slots : SlotPool (BuilderSlot α)}
  {staged : StagedLists α}

theorem fullTurn {state : Schedule.State (StagedEntry α)} {addition : List (StagedEntry α)}
    (capacity : Nat) (any : 0 < state.waiting.length) (full : Full count state.drained)
    (more : Full count addition) : Full count (Schedule.turn capacity state addition).drained :=
  fun entry member =>
    full.append more entry ((Schedule.turnPerm capacity any addition).mem_iff.mp member)

theorem linkFull (orientation : Orientation) {link : Link α} (width : link.values.length = count) :
    Full count (link.entries orientation) ∧ Full count (link.inverseEntries orientation) := by
  constructor
  · intro entry member
    cases orientation <;> simp only [Link.entries, entries, List.mem_cons, List.not_mem_nil,
      or_false] at member
    · exact member ▸ width
    · exact member ▸ width
    · rcases member with rfl | rfl <;> exact width
  · intro entry member
    obtain rfl := List.mem_singleton.mp member
    cases orientation <;> exact width

theorem Staged.turn (h : Staged nodeCount count capacity inverted forward inverse slots staged)
    (any : 0 < forward.waiting.length) (orientation : Orientation) {link : Link α}
    (width : link.values.length = count) :
    ∃ index pool slot slot' after, slots.acquire = .leased index pool ∧
      pool.get? index = some slot ∧
      slot.insert orientation link.source link.target link.values staged = (slot', after) ∧
      Staged nodeCount count capacity inverted
        (Schedule.turn capacity forward (link.entries orientation))
        (Schedule.turn capacity inverse (link.inverseEntries orientation))
        ((pool.update index slot').release index) after := by
  obtain ⟨waiting, queue, forwardWaiting, inverseWaiting⟩ := h.queue
  obtain ⟨linkForward, linkInverse⟩ := linkFull orientation width
  have anyInverse : 0 < inverse.waiting.length := by
    rw [inverseWaiting, List.length_map]
    rwa [forwardWaiting, List.length_map] at any
  have fullAfter := fullTurn capacity any h.full linkForward
  have inverseFullAfter := fullTurn capacity anyInverse h.inverseFull linkInverse
  obtain ⟨delivered, forwardHeld⟩ := forward
  obtain ⟨inverseDelivered, inverseHeld⟩ := inverse
  obtain rfl : forwardHeld = waiting.map Prod.fst := forwardWaiting
  obtain rfl : inverseHeld = waiting.map Prod.snd := inverseWaiting
  cases waiting with
  | nil => simp at any
  | cons pending others =>
    obtain ⟨pending, inversePending⟩ := pending
    obtain ⟨index, pool, leased, got, back⟩ := queue.turn
    have full : Full count (pending ++ link.entries orientation) := by
      refine Full.append ?_ linkForward
      exact fun entry member => h.full entry (by simp [Schedule.State.drained, member])
    have inverseFull : Full count (inversePending ++ link.inverseEntries orientation) := by
      refine Full.append ?_ linkInverse
      exact fun entry member => h.inverseFull entry (by simp [Schedule.State.drained, member])
    obtain ⟨after, inserted, lists, inverseLists⟩ :=
      insertHolds capacity h.lists h.inverseLists full inverseFull
    refine ⟨index, pool, _, _, after, leased, got, inserted, ?_, fullAfter, inverseFullAfter, lists,
      inverseLists⟩
    exact ⟨others ++ [(_, _)], by simpa using back _, by simp [Schedule.turn, Link.entries],
      by simp [Schedule.turn, Link.inverseEntries]⟩

theorem drainAllHolds (capacity : Nat)
    {waiting : List (List (StagedEntry α) × List (StagedEntry α))}
    {delivered inverseDelivered : List (StagedEntry α)}
    (lists : Holds nodeCount count delivered staged.forward)
    (inverseLists : InverseHolds nodeCount count inverted inverseDelivered staged.inverse)
    (full : Full count (waiting.map Prod.fst).flatten)
    (inverseFull : Full count (waiting.map Prod.snd).flatten) :
    Holds nodeCount count (delivered ++ (waiting.map Prod.fst).flatten)
        (SlotPool.drainAll flush (waiting.map (holdingBoth capacity count inverted)) staged).forward ∧
      InverseHolds nodeCount count inverted
        (inverseDelivered ++ (waiting.map Prod.snd).flatten)
        (SlotPool.drainAll flush (waiting.map (holdingBoth capacity count inverted))
          staged).inverse := by
  induction waiting generalizing delivered inverseDelivered staged with
  | nil => simpa [SlotPool.drainAll] using ⟨lists, inverseLists⟩
  | cons pending others ih =>
    obtain ⟨pending, inversePending⟩ := pending
    simp only [List.map_cons, List.flatten_cons] at full inverseFull ⊢
    obtain ⟨lists, inverseLists⟩ :=
      flushBothHolds capacity lists inverseLists full.left inverseFull.left
    have rest := ih lists inverseLists full.right inverseFull.right
    rw [List.append_assoc, List.append_assoc] at rest
    exact rest

theorem Staged.drained (h : Staged nodeCount count capacity inverted forward inverse slots staged) :
    ∃ pool after, slots.close flush staged = some (pool, after) ∧
      Holds nodeCount count forward.drained after.forward ∧
      InverseHolds nodeCount count inverted inverse.drained after.inverse := by
  obtain ⟨waiting, queue, forwardWaiting, inverseWaiting⟩ := h.queue
  obtain ⟨delivered, forwardHeld⟩ := forward
  obtain ⟨inverseDelivered, inverseHeld⟩ := inverse
  obtain rfl : forwardHeld = waiting.map Prod.fst := forwardWaiting
  obtain rfl : inverseHeld = waiting.map Prod.snd := inverseWaiting
  obtain ⟨pool, closed⟩ := queue.drained flush staged
  exact ⟨pool, _, closed,
    drainAllHolds capacity h.lists h.inverseLists h.full.right h.inverseFull.right⟩

theorem startStaged (nodeCount count capacity concurrency : Nat) (inverted : Bool) :
    Staged nodeCount count capacity inverted (Schedule.start concurrency)
      (Schedule.start concurrency)
      (.ofList (List.replicate concurrency (holdingBoth capacity count inverted ([], []))))
      (⟨.make nodeCount count, if inverted then some (.make nodeCount count) else none⟩ :
        StagedLists α) where
  queue := by
    refine ⟨List.replicate concurrency ([], []), ?_, by simp [Schedule.start],
      by simp [Schedule.start]⟩
    rw [List.map_replicate]
    exact SlotPool.ofListQueue _
  full := by simp [Full, Schedule.startDrained]
  inverseFull := by simp [Full, Schedule.startDrained]
  lists := makeHolds nodeCount count
  inverseLists := by
    cases inverted with
    | false => rfl
    | true => exact ⟨_, rfl, makeHolds nodeCount count⟩

end Builder
end CommunityGraph
