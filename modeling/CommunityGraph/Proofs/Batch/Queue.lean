import CommunityGraph.Batch.Queue

/-! What the workers of a queue come to, given what work on one batch comes to. -/
namespace CommunityGraph

def Termination.Stops (t : Termination) : Prop := ∃ asked j, t.running asked j = false

namespace BatchQueue
variable {σ : Type}

inductive Ended (t : Termination) (Goal : σ → Prop) (Failure : EngineError → Prop) :
    Except EngineError Unit × σ → Prop where
  | done {state : σ} (reached : Goal state) : Ended t Goal Failure (.ok (), state)
  | stopped {state : σ} (stops : t.Stops) : Ended t Goal Failure (.error .terminated, state)
  | failed {e : EngineError} {state : σ} (failure : Failure e) :
      Ended t Goal Failure (.error e, state)

def Keeps (batches : List Batch) (action : Action σ) (Invariant : Nat → σ → Prop)
    (Failure : EngineError → Prop) : Prop :=
  ∀ (index : Nat) (batch : Batch) (state : σ) (t : Termination) (j : Journal),
    batches[index]? = some batch → Invariant index state →
    match (action batch state t j).1 with
    | (.ok (), after) => Invariant (index + 1) after
    | (.error e, _) => Failure e

theorem workEnds {batches : List Batch} {action : Action σ} {Invariant : Nat → σ → Prop}
    {Failure : EngineError → Prop} (keeps : Keeps batches action Invariant Failure)
    {left index : Nat} (whole : index + left = batches.length) {state : σ}
    (holds : Invariant index state) (t : Termination) (j : Journal) :
    Ended t (Invariant batches.length) Failure
      (work (.partitions batches) action left index state t j).1 := by
  induction left generalizing index state j with
  | zero =>
    rw [Nat.add_zero] at whole
    subst whole
    cases running : t.running j.checks j with
    | false => simpa [work, Watched.check, running] using Ended.stopped ⟨_, _, running⟩
    | true => simpa [work, Watched.check, running] using Ended.done holds
  | succ left ih =>
    cases running : t.running j.checks j with
    | false => simpa [work, Watched.check, running] using Ended.stopped ⟨_, _, running⟩
    | true =>
      have inside : index < batches.length := by omega
      have found := List.getElem?_eq_getElem inside
      have step := keeps index batches[index] state t j.checked found holds
      unfold work
      simp only [Watched.check, running, BatchSource.batch?, found]
      generalize action batches[index] state t j.checked = answer at step ⊢
      obtain ⟨⟨outcome, after⟩, later⟩ := answer
      cases outcome with
      | error e => exact .failed step
      | ok => exact ih (by omega) step later

theorem idleEnds (workers : Nat) (t : Termination) (j : Journal) :
    (idle workers t j).1 = .ok () ∨ (idle workers t j).1 = .error .terminated ∧ t.Stops := by
  induction workers generalizing j with
  | zero => exact .inl rfl
  | succ workers ih =>
    cases running : t.running j.checks j with
    | false => exact .inr ⟨by simp [idle, Watched.check, running], _, _, running⟩
    | true => simpa [idle, Watched.check, running] using ih j.checked

theorem consumeEnds {batches : List Batch} {action : Action σ} {Invariant : Nat → σ → Prop}
    {Failure : EngineError → Prop} (keeps : Keeps batches action Invariant Failure)
    (concurrency : Nat) {state : σ} (holds : Invariant 0 state) (t : Termination) (j : Journal) :
    Ended t (Invariant batches.length) Failure
      ((ofPartitions batches).consume concurrency action state t j).1 := by
  have worked := workEnds keeps (Nat.zero_add _) holds t j
  simp only [consume, ofPartitions, count, BatchSource.count, Nat.sub_zero]
  generalize work (.partitions batches) action batches.length 0 state t j = ended at worked
  obtain ⟨⟨outcome, after⟩, later⟩ := ended
  cases worked with
  | done reached =>
    rcases idleEnds (max concurrency 1 - 1) t later with rest | ⟨rest, stops⟩
    · simpa [rest] using Ended.done reached
    · simpa [rest] using Ended.stopped stops
  | stopped stops => exact .stopped stops
  | failed failure => exact .failed failure

end BatchQueue
end CommunityGraph
