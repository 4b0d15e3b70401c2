import CommunityGraph.Proofs.Components
import CommunityGraph.Proofs.Louvain.Hierarchy
import CommunityGraph.Proofs.Phases.Programs
import CommunityGraph.Proofs.Progress
import CommunityGraph.Registry

/-! Progress in the phases of loading and of both searches. A phase makes the progress that it was begun
with, but for moving nodes: that goes through all nodes once in every sweep. -/
namespace CommunityGraph
open Run hiding pure
variable {α σ : Type}

namespace BatchQueue

theorem Covers.counts {q : BatchQueue} {total : Nat} (covers : q.Covers total) {action : Action σ}
    (shares : Shares Batch.size action) (concurrency : Nat) (state : σ) :
    Makes total (q.consumeAll concurrency action state) := by
  have sizes : Batch.volume (fun _ => 1) = Batch.size := by
    funext batch
    simp [Batch.volume, Batch.elements]
  have whole : ((List.range total).map fun _ => 1).sum = total := by simp
  exact whole ▸ covers.makes (sizes ▸ shares) concurrency state

theorem sharesNote (step : Batch → σ → σ) :
    Shares Batch.size fun batch state _ j => ((.ok (), step batch state), j.note (.progress batch.size)) :=
  fun _ _ => .noting ⟨le_rfl, fun _ => rfl⟩

end BatchQueue

namespace GraphFile

theorem readLinesMakes (number : Nat) (lines : List (List UInt8)) :
    Makes lines.length (readLines number lines) := by
  induction lines generalizing number with
  | nil => exact makesPure _
  | cons line lines ih =>
    rw [readLinesNext]
    refine (makesNote 1).bind (fun _ _ => ?_) (Nat.add_comm 1 lines.length)
    cases GraphRecord.ofLine number line with
    | error e => exact makesFail _ e
    | ok record => exact (ih (number + 1)).silently fun _ => stepsPure _

theorem addAndBuildMakes (m : Machine) (records : List GraphRecord) (b : Builder Float) :
    Makes records.length (addAndBuild m records b) := by
  unfold addAndBuild
  split
  · exact makesFail _ _
  · exact (Builder.buildOnSteps m _).silentBefore fun _ _ => (makesNote _).silently fun _ => stepsPure _

end GraphFile

namespace Components

theorem uniteMakes [Weight α] (g : Graph α) (c : ComponentsConfig) :
    Makes g.nodeCount (unite g.network (queue g c) c.threadCount) :=
  (queueCovers g c).counts (BatchQueue.sharesNote _) _ _

theorem numberMakes (nodeCount : Nat) (sets : DisjointSet) : Makes nodeCount (number nodeCount sets) :=
  (makesNote nodeCount).silently fun _ => stepsPure _

end Components

def Entry.sweeps : Entry → Nat
  | .log line => if line.text = "local moving sweep" then 1 else 0
  | _ => 0

def sweepsOf (entries : List Entry) : Nat := (entries.map Entry.sweeps).sum

theorem sweepsAppend (entries more : List Entry) :
    sweepsOf (entries ++ more) = sweepsOf entries + sweepsOf more := by
  rw [sweepsOf, List.map_append, List.sum_append, sweepsOf, sweepsOf]

namespace LocalMoving
variable [Weight α] {n most : Nat} {done : Prop} {added more : List Entry}

structure Swept (n most : Nat) (done : Prop) (entries : List Entry) : Prop where
  bound : progressOf entries ≤ most * n
  rounds : done → sweepsOf entries ≤ most ∧ (0 < most → 0 < sweepsOf entries)
  whole : done → progressOf entries = sweepsOf entries * n

theorem sweptNothing (n : Nat) (done : Prop) : Swept n 0 done [] :=
  ⟨(Nat.zero_mul n).ge, fun _ => ⟨le_rfl, id⟩, fun _ => (Nat.zero_mul n).symm⟩

theorem sweptUndone (bound : progressOf added ≤ most * n) (undone : ¬ done) : Swept n most done added :=
  ⟨bound, fun held => absurd held undone, fun held => absurd held undone⟩

theorem Swept.further {line : LogLine} (text : line.text = "local moving sweep")
    (sweep : progressOf added = n) (single : sweepsOf added = 0) (rest : Swept n most done more) :
    Swept n (most + 1) done (added ++ .log line :: more) := by
  have progress : progressOf (added ++ .log line :: more) = n + progressOf more := by
    rw [progressAppend, sweep]
    exact congrArg (n + ·) (Nat.zero_add _)
  have sweeps : sweepsOf (added ++ .log line :: more) = sweepsOf more + 1 := by
    have here : Entry.sweeps (.log line) = 1 := if_pos text
    rw [sweepsAppend, single, Nat.zero_add, sweepsOf, List.map_cons, List.sum_cons, here, Nat.add_comm]
    rfl
  refine ⟨?_, fun ended => ?_, fun ended => ?_⟩
  · rw [progress, Nat.succ_mul, Nat.add_comm]
    exact Nat.add_le_add_right rest.bound n
  · rw [sweeps]
    exact ⟨Nat.succ_le_succ (rest.rounds ended).1, fun _ => Nat.succ_pos _⟩
  · rw [progress, sweeps, Nat.succ_mul, rest.whole ended, Nat.add_comm]

theorem Swept.le (swept : Swept n 1 done added) (some : 0 < most) : Swept n most done added where
  bound := swept.bound.trans (Nat.mul_le_mul_right n some)
  rounds ended := ⟨(swept.rounds ended).1.trans some, fun _ => (swept.rounds ended).2 one_pos⟩
  whole := swept.whole

theorem passClassMakes (s : Setting α) (members : List Nat) (moves : Nat) (a : Assignment α)
    (decisions : Array Nat) : Makes members.length (passClass s members moves a decisions) :=
  ((BatchQueue.consecutiveCovers _ _ _).counts (BatchQueue.sharesNote _) _ _).silently fun _ =>
    stepsPure _

theorem sweepMakes (s : Setting α) (classes : List (List Nat)) (moves : Nat) (a : Assignment α)
    (decisions : Array Nat) : Makes (classes.map List.length).sum (sweep s classes moves a decisions) := by
  induction classes generalizing moves a decisions with
  | nil => exact makesPure _
  | cons members classes ih =>
    exact (passClassMakes s members moves a decisions).bind (fun _ _ => ih _ _ _) List.sum_cons.symm

theorem sweepsWrites (s : Setting α) (classes : List (List Nat)) (left number : Nat)
    (a : Assignment α) (decisions : Array Nat) :
    Watched.Writes (fun outcome added =>
        Swept (classes.map List.length).sum left (∃ a, outcome = .ok a) added)
      (sweeps s classes left number a decisions) := by
  induction left generalizing number a decisions with
  | zero => exact .pure (sweptNothing _ _)
  | succ left ih =>
    have quiet : Watched.Writes (fun _ added => ∀ e ∈ added, e.sweeps = 0)
        (sweep s classes 0 a decisions) :=
      Watched.Steps.writes (sweepSteps (fun _ => rfl) s classes 0 a decisions)
    have first := (sweepMakes s classes 0 a decisions).and quiet
    refine writesBind first ?_ ?_
    · rintro e added ⟨made, -⟩
      refine sweptUndone (made.most.trans ?_) (not_exists.mpr (failedAnswer e))
      exact Nat.le_mul_of_pos_left _ (Nat.succ_pos left)
    · rintro ⟨moves, a, decisions⟩ added - ⟨made, silent⟩
      have single : sweepsOf added = 0 := measuredNothing silent
      have once := made.whole ⟨_, rfl⟩
      have logs : ∀ line : LogLine, Watched.Writes (fun outcome logged => outcome = .ok () ∧
          logged = [.log line]) (note (.log line)) := fun _ => .noting ⟨rfl, rfl⟩
      refine writesBind (logs _) (fun e _ failed => absurd failed.1 (failedAnswer e ())) ?_
      rintro _ _ - ⟨-, rfl⟩
      split
      · refine .pure ?_
        exact ((sweptNothing _ _).further rfl once single).le (Nat.succ_pos left)
      · refine (ih _ _ _).imp fun outcome more swept => ?_
        exact swept.further rfl once single

theorem runWrites (s : Setting α) (coloring : Coloring) (maxSweeps : Nat) :
    Watched.Writes (fun outcome added =>
        Swept s.network.nodeCount maxSweeps (∃ a, outcome = .ok a) added)
      (run s coloring maxSweeps) := by
  have whole : ((colorClasses (coloring.colors s.network)).map List.length).sum =
      s.network.nodeCount := by
    -- Each node has one color, so a sweep over the classes comes to it once.
    have perm := classifyPerm fun label (member : label ∈ coloring.colors s.network) =>
      ltLabelBound member
    rw [colorClasses, ← List.length_flatten, perm.length_eq, List.length_range, colorsLength]
  have swept := sweepsWrites s (colorClasses (coloring.colors s.network)) maxSweeps 0
    (.singletons s.degrees) (Array.replicate s.network.nodeCount 0)
  rw [whole] at swept
  refine writesBind swept ?_ ?_
  · exact fun e added failed => sweptUndone failed.bound (not_exists.mpr (failedAnswer e))
  · intro a added _ swept
    refine .pure ?_
    rw [List.append_nil]
    exact ⟨swept.bound, fun _ => swept.rounds ⟨a, rfl⟩, fun _ => swept.whole ⟨a, rfl⟩⟩

end LocalMoving

namespace Louvain
variable [Weight α] {network : Network α} {rename : Nat → Nat} {counted : Bool}
  {c : LouvainConfig α} {b : Builder α}

def counting (network : Network α) (counted : Bool) (node : Nat) : Nat :=
  if counted then network.degree node else 0

theorem addRowsMakes (network : Network α) (rename : Nat → Nat) (counted : Bool) (nodes : List Nat)
    (b : Builder α) :
    Watched.Writes (fun answer added =>
        Progressed (nodes.map (counting network counted)).sum (answer.1 = .ok ()) added)
      fun _ j => addRows network rename counted nodes b j := by
  induction nodes generalizing b with
  | nil => exact .pure (progressedNothing _)
  | cons node nodes ih =>
    simp only [addRows]
    generalize b.addEach (addTo rename (rename node)) (network.row node) = answer
    obtain ⟨outcome, after⟩ := answer
    have counts : Watched.Writes (fun _ added => Progressed (counting network counted node) True added)
        fun _ j => ((), if counted then j.note (.progress (network.degree node)) else j) := by
      cases counted with
      | false => exact .pure (progressedNothing _)
      | true => exact .noting ⟨le_rfl, fun _ => rfl⟩
    cases outcome with
    | error e =>
      exact counts.bind fun _ added made =>
        .pure (b := (Except.error e, after)) (by
          rw [List.append_nil]
          exact made.unfinished (failedAnswer e ()) _)
    | ok =>
      exact counts.bind fun _ added made =>
        (ih after).imp fun answer more rest => made.append trivial rest

theorem rebuildMakes (network : Network α) (rename : Nat → Nat) (counted : Bool)
    (c : LouvainConfig α) (b : Builder α) :
    Makes ((List.range network.nodeCount).map (counting network counted)).sum
      (rebuild network rename counted c b) := by
  have covers := BatchQueue.consecutiveCovers network.nodeCount c.minBatchSize c.concurrency
  have shares : BatchQueue.Shares (Batch.volume (counting network counted))
      fun batch b _ j => addRows network rename counted batch.elements b j :=
    fun batch b => addRowsMakes network rename counted batch.elements b
  exact (covers.makes shares c.concurrency b).silently fun _ =>
    (Builder.buildSteps _).bind fun _ => stepsPure _

theorem collapseMakes (network : Network α) (dense : Array Nat) (count : Nat) (c : LouvainConfig α) :
    Makes ((List.range network.nodeCount).map network.degree).sum (collapse network dense count c) :=
  Steps.silentBefore (stepsExcept _) fun b _ =>
    (rebuildMakes network (fun node => dense.getD node 0) true c b).silently fun _ =>
      (stepsNote trivial).bind fun _ => stepsPure _

theorem symmetricCopyMakes (g : Graph α) (c : LouvainConfig α) : Makes 0 (symmetricCopy g c) := by
  have still : counting g.network false = fun _ => 0 := rfl
  have none : ((List.range g.network.nodeCount).map (counting g.network false)).sum = 0 := by
    simp [still]
  exact none ▸ Steps.silentBefore (stepsExcept _) fun b _ => rebuildMakes g.network id false c b

theorem firstLevelMakes (g : Graph α) (c : LouvainConfig α) :
    Makes g.nodeCount (firstLevel g c) := by
  have counts : ∀ answer : Level α × α × α, Makes g.nodeCount (do
      Run.note (.progress g.nodeCount)
      pure answer) := fun _ => (makesNote g.nodeCount).silently fun _ => stepsPure _
  unfold firstLevel
  dsimp only
  split
  · exact Steps.silentBefore (stepsPure _) fun _ _ => counts _
  · exact (symmetricCopyMakes g c).bind (fun _ _ => counts _) (Nat.zero_add g.nodeCount)

end Louvain
end CommunityGraph
