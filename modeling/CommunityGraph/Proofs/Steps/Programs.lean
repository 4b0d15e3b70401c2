import Mathlib
import CommunityGraph.Components
import CommunityGraph.Graph.Loader
import CommunityGraph.Louvain
import CommunityGraph.Proofs.Builder.Build
import CommunityGraph.Proofs.Steps

/-! Building, loading and both searches, step by step. The work inside of a phase writes down nothing but
progress and logged lines: phases and changes of state are those of the run around it. -/
namespace CommunityGraph
variable {α β : Type}

def Entry.Inner : Entry → Prop
  | .progress _ | .log _ => True
  | _ => False

def Entry.Logged : Entry → Prop
  | .log _ => True
  | _ => False

theorem Entry.Logged.inner {e : Entry} (logged : e.Logged) : e.Inner := by
  cases e with
  | log => trivial
  | _ => exact logged.elim

def Entry.Any (_ : Entry) : Prop := True

theorem Run.Steps.phased {m : Run β} (body : Run.Steps Entry.Inner m) (name : String)
    (volume : Nat) : Run.Steps Entry.Any (Run.phase name volume m) :=
  .phase trivial trivial trivial (body.imp fun _ _ => trivial)

namespace Builder
variable [Weight α]

theorem compressedConsumes (buffer : AdjacencyBuffer α) (layout : PropertyLayout)
    (concurrency : Nat) : compressed buffer layout concurrency =
      BatchQueue.onwards ((BatchQueue.ofPartitions buffer.pageBatches).consume concurrency
        AdjacencyBuffer.pageAction (buffer.pages, .make buffer.nodeCount layout))
        (fun e _ => .error e) (fun state => Run.pure state.2.build) := by
  funext t j
  cases buffer with
  | mk nodeCount propertyCount pages =>
    unfold compressed AdjacencyBuffer.compress BatchQueue.onwards AdjacencyBuffer.pageBatches
      AdjacencyBuffer.pageAction
    dsimp only
    split
    · rename_i failed
      split at failed
      · rename_i first
        rw [first]
        cases failed
        rfl
      · cases failed
    · rename_i finished
      split at finished
      · cases finished
      · rename_i first
        rw [first]
        cases finished
        rfl

theorem compressedSteps {Kind : Entry → Prop} (buffer : AdjacencyBuffer α)
    (layout : PropertyLayout) (concurrency : Nat) :
    Run.Steps Kind (compressed buffer layout concurrency) := by
  rw [compressedConsumes]
  refine BatchQueue.onwardsSteps (BatchQueue.consumeSteps _ _ (fun batch state => ?_) _)
    (fun state => .pure _) fun _ => rfl
  exact .pure _

theorem assembleSteps (config : BuilderConfig α) (layout : PropertyLayout) (dropped : Nat)
    (staged : StagedLists α) : Run.Steps Entry.Logged (assemble config layout dropped staged) := by
  have lists : Run.Steps Entry.Logged (compressBoth config layout staged) := by
    refine (compressedSteps _ _ _).bind fun forward => ?_
    have gathers : ∀ inverse, Run.Steps Entry.Logged (do
        Run.log .info "relationships built" []
        pure (gathered config layout forward inverse)) := fun _ =>
      (Run.stepsNote trivial).bind fun _ => Run.stepsPure _
    cases staged.inverse with
    | none => exact (Run.stepsPure none).bind gathers
    | some buffer =>
      exact (compressedSteps _ _ _).bind fun lists => (Run.stepsPure (some lists)).bind gathers
  unfold assemble
  by_cases any : 0 < dropped
  · rw [if_pos any]
    exact (Run.stepsNote trivial).bind fun _ => lists
  · rw [if_neg any]
    exact (Run.stepsPure ()).bind fun _ => lists

theorem buildSteps (b : Builder α) : Run.Steps Entry.Logged b.build := by
  unfold build
  split
  · exact Run.stepsFail _
  · exact assembleSteps _ _ _ _

theorem buildOnSteps (m : Machine) (b : Builder α) : Run.Steps Entry.Logged (b.buildOn m) :=
  (Run.stepsExcept _).bind fun _ => buildSteps b

end Builder

namespace GraphFile

theorem readLinesNext (number : Nat) (line : List UInt8) (lines : List (List UInt8)) :
    readLines number (line :: lines) = (do
      Run.note (.progress 1)
      match GraphRecord.ofLine number line with
      | .error e => Run.fail e
      | .ok record =>
        let records ← readLines (number + 1) lines
        pure (record :: records)) := by
  funext t j
  rw [readLines]
  cases GraphRecord.ofLine number line with
  | error e => rfl
  | ok record =>
    simp only [Run.bindApply, Run.note]
    generalize readLines (number + 1) lines t (j.note (.progress 1)) = answer
    obtain ⟨outcome, later⟩ := answer
    cases outcome <;> rfl

theorem readLinesSteps (number : Nat) (lines : List (List UInt8)) :
    Run.Steps Entry.Inner (readLines number lines) := by
  induction lines generalizing number with
  | nil => exact Run.stepsPure _
  | cons line lines ih =>
    rw [readLinesNext]
    refine (Run.stepsNote trivial).bind fun _ => ?_
    cases GraphRecord.ofLine number line with
    | error e => exact Run.stepsFail e
    | ok record => exact (ih _).bind fun _ => Run.stepsPure _

theorem addAndBuildSteps (m : Machine) (records : List GraphRecord) (b : Builder Float) :
    Run.Steps Entry.Inner (addAndBuild m records b) := by
  unfold addAndBuild
  split
  · exact Run.stepsFail _
  · exact ((Builder.buildOnSteps m _).imp fun _ => Entry.Logged.inner).bind fun _ =>
      (Run.stepsNote trivial).bind fun _ => Run.stepsPure _

theorem compareHeaderSteps (c : LoaderConfig) (records : List GraphRecord) (actual : Nat) :
    Run.Steps Entry.Logged (compareHeader c records actual) := by
  unfold compareHeader
  split
  · exact Run.stepsPure ()
  · split
    · exact Run.stepsNote trivial
    · exact Run.stepsPure ()

theorem loadSteps (m : Machine) (content : List UInt8) (c : LoaderConfig) :
    Run.Steps Entry.Any (load m content c) := by
  refine ((readLinesSteps _ _).phased _ _).bind fun records => ?_
  refine Run.stepsRunning.bind fun _ => (Run.stepsExcept _).bind fun builder => ?_
  refine ((addAndBuildSteps _ _ _).phased _ _).bind fun relationships => ?_
  exact ((compareHeaderSteps _ _ _).imp fun _ _ => trivial).bind fun _ =>
    (Run.stepsNote trivial).bind fun _ => Run.stepsPure _

theorem loadFileSteps (m : Machine) (content : Option (List UInt8)) (c : LoaderConfig) :
    Run.Steps Entry.Any (loadFileOn m content c) := by
  cases content with
  | none => exact Run.stepsFail _
  | some bytes => exact loadSteps m bytes c

end GraphFile

namespace Components

theorem uniteSteps (network : Network α) (queue : BatchQueue) (threads : Nat) :
    Run.Steps Entry.Inner (unite network queue threads) :=
  BatchQueue.consumeAllSteps _ _ (fun _ _ => .noting trivial _) _

theorem numberSteps (nodeCount : Nat) (sets : DisjointSet) :
    Run.Steps Entry.Inner (number nodeCount sets) :=
  (Run.stepsNote trivial).bind fun _ => Run.stepsPure _

theorem computeSteps [Weight α] (g : Graph α) (c : ComponentsConfig) :
    Run.Steps Entry.Any (compute g c) := by
  refine (Run.stepsExcept _).bind fun _ => ((uniteSteps _ _ _).phased _ _).bind fun sets => ?_
  exact ((numberSteps _ _).phased _ _).bind fun _ =>
    (Run.stepsNote trivial).bind fun _ => Run.stepsPure _

end Components

namespace LocalMoving
variable [Weight α]

theorem passClassSteps {Kind : Entry → Prop} (counts : ∀ delta, Kind (.progress delta))
    (s : Setting α) (members : List Nat) (moves : Nat) (a : Assignment α) (decisions : Array Nat) :
    Run.Steps Kind (passClass s members moves a decisions) :=
  (BatchQueue.consumeAllSteps _ _ (fun _ _ => .noting (counts _) _) _).bind fun _ => Run.stepsPure _

theorem sweepSteps {Kind : Entry → Prop} (counts : ∀ delta, Kind (.progress delta)) (s : Setting α)
    (classes : List (List Nat)) (moves : Nat) (a : Assignment α) (decisions : Array Nat) :
    Run.Steps Kind (sweep s classes moves a decisions) := by
  induction classes generalizing moves a decisions with
  | nil => exact Run.stepsPure _
  | cons members classes ih => exact (passClassSteps counts _ _ _ _ _).bind fun _ => ih _ _ _

theorem sweepsSteps (s : Setting α) (classes : List (List Nat)) (left number : Nat)
    (a : Assignment α) (decisions : Array Nat) :
    Run.Steps Entry.Inner (sweeps s classes left number a decisions) := by
  induction left generalizing number a decisions with
  | zero => exact Run.stepsPure _
  | succ left ih =>
    refine (sweepSteps (fun _ => trivial) _ _ _ _ _).bind fun answer => (Run.stepsNote trivial).bind fun _ => ?_
    split
    · exact Run.stepsPure _
    · exact ih _ _ _

theorem runSteps (s : Setting α) (coloring : Coloring) (maxSweeps : Nat) :
    Run.Steps Entry.Inner (run s coloring maxSweeps) :=
  (sweepsSteps _ _ _ _ _ _).bind fun _ => Run.stepsPure _

end LocalMoving

namespace Louvain
variable [Weight α]

theorem addRowsSteps {Stopped : (Except EngineError Unit × Builder α) → Prop}
    (network : Network α) (rename : Nat → Nat) (counted : Bool) (nodes : List Nat)
    (b : Builder α) : Watched.Steps Entry.Inner Stopped fun _ j =>
      addRows network rename counted nodes b j := by
  induction nodes generalizing b with
  | nil => exact .pure _
  | cons node nodes ih =>
    simp only [addRows]
    generalize b.addEach (addTo rename (rename node)) (network.row node) = answer
    obtain ⟨outcome, after⟩ := answer
    have counts : Watched.Steps Entry.Inner (fun _ => False) fun _ j =>
        ((), if counted then j.note (.progress (network.degree node)) else j) := by
      cases counted with
      | false => exact .pure ()
      | true => exact .noting trivial ()
    cases outcome with
    | error e => exact counts.before fun _ => .pure (Except.error e, after)
    | ok => exact counts.before fun _ => ih after

theorem rebuildSteps (network : Network α) (rename : Nat → Nat) (counted : Bool)
    (c : LouvainConfig α) (b : Builder α) :
    Run.Steps Entry.Inner (rebuild network rename counted c b) :=
  (BatchQueue.consumeAllSteps _ _ (fun _ _ => addRowsSteps _ _ _ _ _) _).bind fun _ =>
    ((Builder.buildSteps _).imp fun _ => Entry.Logged.inner).bind fun _ => Run.stepsPure _

theorem symmetricCopySteps (g : Graph α) (c : LouvainConfig α) :
    Run.Steps Entry.Inner (symmetricCopy g c) :=
  (Run.stepsExcept _).bind fun _ => rebuildSteps _ _ _ _ _

theorem collapseSteps (network : Network α) (dense : Array Nat) (count : Nat)
    (c : LouvainConfig α) : Run.Steps Entry.Inner (collapse network dense count c) :=
  (Run.stepsExcept _).bind fun _ => (rebuildSteps _ _ _ _ _).bind fun _ =>
    (Run.stepsNote trivial).bind fun _ => Run.stepsPure _

theorem firstLevelSteps (g : Graph α) (c : LouvainConfig α) :
    Run.Steps Entry.Inner (firstLevel g c) := by
  unfold firstLevel
  dsimp only
  split
  · exact (Run.stepsPure _).bind fun _ => (Run.stepsNote trivial).bind fun _ => Run.stepsPure _
  · exact (symmetricCopySteps _ _).bind fun _ =>
      (Run.stepsNote trivial).bind fun _ => Run.stepsPure _

theorem transitionSteps (before after : SearchState) :
    Run.Steps Entry.Any (transition before after) := Run.stepsNote trivial

theorem levelsSteps (c : LouvainConfig α) (total : α) (left number : Nat) (before : SearchState)
    (level : Level α) (f : Findings α) :
    Run.Steps Entry.Any (levels c total left number before level f) := by
  have ends : ∀ (state state' : SearchState) (answer : Bool × Findings α), Run.Steps Entry.Any (do
      transition state state'
      pure answer) := fun _ _ _ => (transitionSteps _ _).bind fun _ => Run.stepsPure _
  -- As the number of levels left matters only where the next level is made, it is split there.
  induction left using Nat.strongRecOn generalizing number before level f with
  | ind left ih =>
  unfold levels
  refine (transitionSteps _ _).bind fun _ => Run.stepsRunning.bind fun _ => ?_
  refine ((LocalMoving.runSteps _ _ _).phased _ _).bind fun communities => ?_
  cases judge level total f.previous communities with
  | unchanged => exact (Run.stepsNote trivial).bind fun _ => ends _ _ _
  | lowered => exact (Run.stepsNote trivial).bind fun _ => ends _ _ _
  | applied current gain dense count =>
    refine (Run.stepsNote trivial).bind fun _ => ?_
    split
    · exact ends _ _ _
    · cases left with
      | zero => exact ends _ _ _
      | succ left =>
        exact ((collapseSteps _ _ _ _).phased _ _).bind fun _ =>
          ih left (Nat.lt_succ_self left) _ _ _ _

theorem computeSteps (g : Graph α) (c : LouvainConfig α) :
    Run.Steps Entry.Any (compute g c) := by
  refine Run.stepsRunning.bind fun _ => ((firstLevelSteps _ _).phased _ _).bind fun first => ?_
  exact (levelsSteps _ _ _ _ _ _ _).bind fun _ => (Run.stepsNote trivial).bind fun _ =>
    Run.stepsPure _

end Louvain
end CommunityGraph
