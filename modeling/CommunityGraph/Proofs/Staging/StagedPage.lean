import Mathlib.Data.List.DropRight
import CommunityGraph.Proofs.Staging.StagedList

/-! The lists of a page as queues, one for each node. Whatever was done for other nodes in between, taking
a list gives the rows added for its node since it was last taken, in order. -/
namespace CommunityGraph
variable {α : Type}

namespace StagedPage

inductive Call (α : Type) where
  | add (node : Nat) (target : UInt64) (values : List α)
  | take (node : Nat)
  | count (node : Nat)

inductive Answer (α : Type) where
  | added
  | taken (targets : List UInt64) (columns : List (List α))
  | counted (relationships : Nat)

def perform (page : StagedPage α) : Call α → Option (Answer α × StagedPage α)
  | .add node target values => (page.add? node target values).map fun page => (.added, page)
  | .take node => (page.take? node).map fun ((targets, columns), page) => (.taken targets columns, page)
  | .count node => (page.count? node).map fun relationships => (.counted relationships, page)

def performAll (page : StagedPage α) : List (Call α) → Option (List (Answer α) × StagedPage α)
  | [] => some ([], page)
  | call :: calls => do
      let (answer, page) ← page.perform call
      let (answers, page) ← page.performAll calls
      some (answer :: answers, page)

namespace Call

def node : Call α → Nat
  | .add node _ _ | .take node | .count node => node

def Fits (nodeCount count : Nat) : Call α → Prop
  | .add node _ values => node < nodeCount ∧ values.length = count
  | .take node | .count node => node < nodeCount

def takes (node : Nat) : Call α → Bool
  | .take other => other = node
  | _ => false

def row? (node : Nat) : Call α → Option (Row α)
  | .add other target values => if other = node then some ⟨target, values⟩ else none
  | _ => none

end Call

def waiting (node : Nat) (calls : List (Call α)) : List (Row α) :=
  (calls.rtakeWhile fun call => !call.takes node).filterMap (Call.row? node)

def Call.answer (count : Nat) (before : List (Call α)) : Call α → Answer α
  | .add _ _ _ => .added
  | .take node =>
      .taken ((waiting node before).map Row.target) (Row.columns count (waiting node before))
  | .count node => .counted (waiting node before).length

theorem waitingSnoc (node : Nat) (calls : List (Call α)) (call : Call α) :
    waiting node (calls ++ [call]) =
      if call.takes node then [] else waiting node calls ++ (call.row? node).toList := by
  by_cases taken : call.takes node
  · simp [waiting, taken]
  · simp only [waiting, List.rtakeWhile_concat, taken]
    cases found : call.row? node <;> simp [found]

theorem waitingElsewhere {node : Nat} {call : Call α} (apart : node ≠ call.node)
    (calls : List (Call α)) : waiting node (calls ++ [call]) = waiting node calls := by
  rw [waitingSnoc]
  cases call <;> simp_all [Call.takes, Call.row?, Call.node, eq_comm]

structure Queues (nodeCount count : Nat) (calls : List (Call α)) (page : StagedPage α) : Prop where
  size : page.lists.size = nodeCount
  keeps : ∀ (node : Nat) (list : StagedList α), page.lists[node]? = some list →
    list.Keeps count (waiting node calls)

theorem makeQueues (nodeCount count : Nat) :
    Queues nodeCount count [] (make nodeCount count : StagedPage α) where
  size := by simp [make]
  keeps node list found := by
    simp only [make, Array.getElem?_replicate, Option.ite_none_right_eq_some,
      Option.some.injEq] at found
    rw [← found.2]
    exact StagedList.emptyKeeps count

section OneCall
variable {nodeCount count : Nat} {calls : List (Call α)} {page : StagedPage α}

theorem Queues.list (queues : Queues nodeCount count calls page) {node : Nat}
    (inside : node < nodeCount) :
    ∃ list, page.lists[node]? = some list ∧ list.Keeps count (waiting node calls) := by
  have found := Array.getElem?_eq_getElem (queues.size.symm ▸ inside)
  exact ⟨_, found, queues.keeps node _ found⟩

theorem clearedEmpty {rows : List (Row α)} {list : StagedList α} (keeps : list.Keeps count rows) :
    list.cleared = .empty count := by
  rw [StagedList.cleared, keeps.columns, List.length_map, Row.columnsLength]

theorem Queues.add (queues : Queues nodeCount count calls page) {node : Nat} (target : UInt64)
    {values : List α} (full : values.length = count) :
    Queues nodeCount count (calls ++ [.add node target values]) (page.add node target values) where
  size := by simpa [StagedPage.add] using queues.size
  keeps other list found := by
    simp only [StagedPage.add, Array.getElem?_modify] at found
    split at found
    · rename_i same
      subst same
      obtain ⟨before, there, rfl⟩ := Option.map_eq_some_iff.mp found
      have grown := (queues.keeps node before there).add target full
      rwa [waitingSnoc, if_neg (by simp [Call.takes]), Call.row?, if_pos rfl]
    · rename_i apart
      have elsewhere : other ≠ (Call.add node target values).node := Ne.symm apart
      rw [waitingElsewhere elsewhere]
      exact queues.keeps other list found

theorem Queues.take (queues : Queues nodeCount count calls page) {node : Nat} :
    Queues nodeCount count (calls ++ [.take node])
      ⟨page.lists.setIfInBounds node (.empty count)⟩ where
  size := by simpa using queues.size
  keeps other list found := by
    by_cases same : node = other
    · subst same
      obtain ⟨inside, -⟩ := Array.getElem?_eq_some_iff.mp found
      rw [Array.size_setIfInBounds] at inside
      rw [Array.getElem?_setIfInBounds_self_of_lt inside, Option.some.injEq] at found
      rw [← found, waitingSnoc, if_pos (by simp [Call.takes])]
      exact StagedList.emptyKeeps count
    · have elsewhere : other ≠ (Call.take node : Call α).node := Ne.symm same
      rw [Array.getElem?_setIfInBounds_ne same] at found
      rw [waitingElsewhere elsewhere]
      exact queues.keeps other list found

theorem Queues.counted (queues : Queues nodeCount count calls page) (node : Nat) :
    Queues nodeCount count (calls ++ [.count node]) page where
  size := queues.size
  keeps other list found := by
    have same : waiting other (calls ++ [.count node]) = waiting other calls := by
      simp [waitingSnoc, Call.takes, Call.row?]
    rw [same]
    exact queues.keeps other list found

theorem Queues.perform (queues : Queues nodeCount count calls page) {call : Call α}
    (fits : call.Fits nodeCount count) :
    ∃ next, page.perform call = some (call.answer count calls, next) ∧
      Queues nodeCount count (calls ++ [call]) next := by
  cases call with
  | add node target values =>
    obtain ⟨inside, full⟩ := fits
    refine ⟨_, ?_, queues.add target full⟩
    have present : node < page.nodeCount := by rwa [StagedPage.nodeCount, queues.size]
    simp [StagedPage.perform, StagedPage.add?, present, Call.answer]
  | take node =>
    obtain ⟨list, found, keeps⟩ := queues.list fits
    refine ⟨_, ?_, queues.take⟩
    simp [StagedPage.perform, StagedPage.take?, found, keeps.targets, keeps.values,
      clearedEmpty keeps, Call.answer]
  | count node =>
    obtain ⟨list, found, keeps⟩ := queues.list fits
    refine ⟨_, ?_, queues.counted node⟩
    simp [StagedPage.perform, StagedPage.count?, found, keeps.length, Call.answer]

theorem performApart {call : Call α} {answer : Answer α} {next : StagedPage α}
    (done : page.perform call = some (answer, next)) {other : Nat} (apart : other ≠ call.node) :
    next.lists[other]? = page.lists[other]? := by
  cases call with
  | add node target values =>
    simp only [StagedPage.perform, StagedPage.add?, Option.map_eq_some_iff, Prod.mk.injEq,
      Option.ite_none_right_eq_some, Option.some.injEq] at done
    obtain ⟨_, ⟨-, rfl⟩, -, rfl⟩ := done
    have elsewhere : ¬ node = other := Ne.symm apart
    simp [StagedPage.add, Array.getElem?_modify, elsewhere]
  | take node =>
    simp only [StagedPage.perform, StagedPage.take?, Option.map_map, Option.map_eq_some_iff,
      Function.comp_apply, Prod.mk.injEq] at done
    obtain ⟨list, -, -, rfl⟩ := done
    exact Array.getElem?_setIfInBounds_ne (Ne.symm apart)
  | count node =>
    simp only [StagedPage.perform, Option.map_eq_some_iff, Prod.mk.injEq] at done
    obtain ⟨relationships, -, -, rfl⟩ := done
    rfl

end OneCall

theorem Queues.performAll {nodeCount count : Nat} {before calls : List (Call α)}
    {page : StagedPage α} (queues : Queues nodeCount count before page)
    (fits : ∀ call ∈ calls, call.Fits nodeCount count) :
    ∃ answers next, page.performAll calls = some (answers, next) ∧
      Queues nodeCount count (before ++ calls) next ∧
      ∀ earlier call later, calls = earlier ++ call :: later →
        answers[earlier.length]? = some (call.answer count (before ++ earlier)) := by
  induction calls generalizing before page with
  | nil => exact ⟨[], page, rfl, by simpa using queues, by simp⟩
  | cons call calls ih =>
    obtain ⟨next, done, further⟩ := queues.perform (fits call (by simp))
    obtain ⟨answers, last, rest, final, told⟩ :=
      ih further fun other member => fits other (List.mem_cons_of_mem _ member)
    rw [List.append_assoc] at final
    refine ⟨call.answer count before :: answers, last, ?_, final, ?_⟩
    · simp [StagedPage.performAll, done, rest]
    · intro earlier other later split
      cases earlier with
      | nil =>
        obtain ⟨rfl, -⟩ := List.cons.inj split
        simp
      | cons first earlier =>
        obtain ⟨rfl, same⟩ := List.cons.inj split
        simpa using told earlier other later same

structure Serves (nodeCount count : Nat) (calls : List (Call α)) (answers : List (Answer α))
    (page : StagedPage α) : Prop where
  answered : ∀ earlier call later, calls = earlier ++ call :: later →
    answers[earlier.length]? = some (call.answer count earlier)
  counted : ∀ node < nodeCount, page.count? node = some (waiting node calls).length
  emptied : ∀ node taken after, page.take? node = some (taken, after) →
    after.lists[node]? = some (.empty count)
  apart : ∀ call answer after, page.perform call = some (answer, after) →
    ∀ other, other ≠ call.node → after.lists[other]? = page.lists[other]?

/-- A page answers every call, and answers for each node as a queue of the rows added for it. -/
theorem pageServes (nodeCount count : Nat) (calls : List (Call α))
    (fits : ∀ call ∈ calls, call.Fits nodeCount count) :
    ∃ answers page, (make nodeCount count).performAll calls = some (answers, page) ∧
      Serves nodeCount count calls answers page := by
  obtain ⟨answers, page, done, queues, answered⟩ :=
    (makeQueues nodeCount count : Queues nodeCount count [] (make nodeCount count)).performAll fits
  refine ⟨answers, page, done, ?_⟩
  constructor
  · simpa using answered
  · intro node inside
    obtain ⟨list, found, keeps⟩ := queues.list inside
    simp [StagedPage.count?, found, keeps.length]
  · intro node taken after took
    obtain ⟨list, found, same⟩ := Option.map_eq_some_iff.mp took
    obtain ⟨-, rfl⟩ := Prod.mk.inj same
    obtain ⟨inside, -⟩ := Array.getElem?_eq_some_iff.mp found
    rw [Array.getElem?_setIfInBounds_self_of_lt inside, clearedEmpty (queues.keeps node list found)]
  · intro call answer after performed other elsewhere
    exact performApart performed elsewhere

def sampleCalls : List (Call Int) :=
  [.add 1 18446744073709551615 [10], .add 0 4 [5], .add 1 2 [20], .take 1, .add 1 7 [30], .take 1]

theorem sampleServes :
    (∀ call ∈ sampleCalls, call.Fits 2 1) ∧
    ∃ answers page, (make 2 1).performAll sampleCalls = some (answers, page) ∧
      answers[3]? = some (.taken [18446744073709551615, 2] [[10, 20]]) ∧
      answers[5]? = some (.taken [7] [[30]]) ∧ page.count? 0 = some 1 := by
  have fits : ∀ call ∈ sampleCalls, call.Fits 2 1 := by
    simp [sampleCalls, Call.Fits]
  obtain ⟨answers, page, done, serves⟩ := pageServes 2 1 sampleCalls fits
  refine ⟨fits, answers, page, done, ?_, ?_, ?_⟩
  · exact serves.answered [.add 1 18446744073709551615 [10], .add 0 4 [5], .add 1 2 [20]] _ _ rfl
  · exact serves.answered
      [.add 1 18446744073709551615 [10], .add 0 4 [5], .add 1 2 [20], .take 1, .add 1 7 [30]] _ _ rfl
  · exact serves.counted 0 (by decide)

end StagedPage
end CommunityGraph
