import CommunityGraph.Proofs.Phases

/-! The phases of loading and of both searches. What they are good for is left open here: it is asked of the
work of each phase, and for a community search of the levels that the work is done on. -/
namespace CommunityGraph
open Run hiding pure
variable {α : Type} {Good : Phase → Prop} {work : Phase → Nat}

namespace GraphFile
variable {m : Machine} {content : List UInt8} {c : LoaderConfig} {reading building : Nat}

theorem loadTraces
    (reads : Works Good work reading "Parse" (Text.pieces 10 content).length
      (readLines 1 (Text.pieces 10 content)))
    (builds : ∀ records b, Works Good work building "Build" records.length
      (addAndBuild m records b)) :
    Traces Good work (reading + building) (load m content c) := by
  refine reads.traces.bind (fun records _ => ?_) le_rfl
  refine Steps.onwards stepsRunning fun _ _ => Steps.onwards (stepsExcept _) fun b _ => ?_
  refine (builds records b).traces.bind (fun relationships _ => ?_) (Nat.add_zero building).le
  refine Steps.onwards ((compareHeaderSteps _ _ _).imp fun _ => Entry.Logged.outer) fun _ _ => ?_
  exact Steps.onwards (stepsNote trivial) fun _ _ => (stepsPure _).traces

end GraphFile

namespace Components
variable [Weight α] {g : Graph α} {c : ComponentsConfig} {uniting numbering : Nat}

theorem computeTraces
    (unites : Works Good work uniting "Union" g.nodeCount
      (unite g.network (queue g c) c.threadCount))
    (numbers : ∀ sets, Works Good work numbering "Components" g.nodeCount (number g.nodeCount sets)) :
    Traces Good work (uniting + numbering) (compute g c) := by
  refine Steps.onwards (stepsExcept _) fun _ _ => unites.traces.bind (fun sets _ => ?_) le_rfl
  refine (numbers sets).traces.bind (fun result _ => ?_) (Nat.add_zero numbering).le
  exact Steps.onwards (stepsNote trivial) fun _ _ => (stepsPure _).traces

end Components

namespace Louvain
variable [Weight α] {c : LouvainConfig α} {total : α} {Holds : Level α → Prop}
  {starting moving folding : Nat}

def moveNodes (c : LouvainConfig α) (total : α) (level : Level α) : Run (List Nat) :=
  LocalMoving.run ⟨level.network, level.degrees, total, c.concurrency, c.minBatchSize⟩ c.coloring
    c.maxLocalIterations

def Folds (c : LouvainConfig α) (total : α) (level : Level α) (dense : List Nat) (count : Nat) : Prop :=
  ∃ communities previous current gain, Answers (moveNodes c total level) communities ∧
    judge level total previous communities = .applied current gain dense count

structure Working (Good : Phase → Prop) (work : Phase → Nat) (moving folding : Nat)
    (Holds : Level α → Prop) (c : LouvainConfig α) (total : α) : Prop where
  moves : ∀ level, Holds level → Works Good work moving "Local moving" level.network.nodeCount
    (moveNodes c total level)
  folds : ∀ level dense count, Holds level → Folds c total level dense count →
    Works Good work folding "Aggregation" level.relationshipCount
      (collapse level.network dense.toArray count c)
  holds : ∀ level dense count g representatives, Holds level → Folds c total level dense count →
    Answers (collapse level.network dense.toArray count c) g → Holds (.ofGraph g representatives)

theorem levelsTraces (working : Working Good work moving folding Holds c total) (left number : Nat)
    (before : SearchState) {level : Level α} (holds : Holds level) (f : Findings α) :
    Traces Good work (moving + left * (folding + moving)) (levels c total left number before level f) := by
  have ends : ∀ (most : Nat) (state state' : SearchState) (answer : Bool × Findings α),
      Traces Good work most (do
        transition state state'
        pure answer) := by
    intro most state state' answer
    have changes : Steps Entry.Outer (transition state state') := stepsNote trivial
    exact changes.traces.bind (fun _ _ => (stepsPure _).traces) (Nat.zero_le most)
  -- A level is worked on before it is looked at how many are left, so both cases begin in the same way.
  induction left using Nat.strongRecOn generalizing number before level f with
  | ind left ih =>
  unfold levels
  refine Steps.onwards (stepsNote trivial) fun _ _ => Steps.onwards stepsRunning fun _ _ => ?_
  refine (working.moves level holds).traces.bind (fun communities moved => ?_) le_rfl
  cases applied : judge level total f.previous communities with
  | unchanged => exact Steps.onwards (stepsNote trivial) fun _ _ => ends _ _ _ _
  | lowered => exact Steps.onwards (stepsNote trivial) fun _ _ => ends _ _ _ _
  | applied current gain dense count =>
    have folds : Folds c total level dense count :=
      ⟨communities, _, current, gain, answersPhase moved, applied⟩
    refine Steps.onwards (stepsNote trivial) fun _ _ => ?_
    split
    · exact ends _ _ _ _
    · cases left with
      | zero => exact ends _ _ _ _
      | succ left =>
        have fits : folding + (moving + left * (folding + moving)) ≤
            (left + 1) * (folding + moving) := by
          rw [Nat.succ_mul]
          omega
        refine (working.folds level dense count holds folds).traces.bind (fun g answers => ?_) fits
        exact ih left (Nat.lt_succ_self left) _ _
          (working.holds _ _ _ g _ holds folds (answersPhase answers)) _

theorem computeTraces {g : Graph α}
    (starts : Works Good work starting "Initialization" g.nodeCount (firstLevel g c))
    (holds : ∀ answer, Answers (firstLevel g c) answer → Holds answer.1)
    (working : ∀ total, Working Good work moving folding Holds c total) :
    Traces Good work (starting + (moving + (c.maxIterations - 1) * (folding + moving)))
      (compute g c) := by
  refine Steps.onwards stepsRunning fun _ _ => starts.traces.bind (fun first answers => ?_) le_rfl
  obtain ⟨level, total, modularity⟩ := first
  refine (levelsTraces (working total) _ _ _ (holds _ (answersPhase answers)) _).bind
    (fun answer _ => ?_) (Nat.add_zero _).le
  exact Steps.onwards (stepsNote trivial) fun _ _ => (stepsPure _).traces

theorem workingAny (c : LouvainConfig α) (total : α) :
    Working (fun _ => True) (fun _ => 0) 0 0 (fun _ => True) c total where
  moves _ _ := Works.any (LocalMoving.runSteps _ _ _)
  folds _ _ _ _ _ := Works.any (collapseSteps _ _ _ _)
  holds _ _ _ _ _ _ _ _ := trivial

end Louvain

theorem phasesBalanced [Weight α] :
    (∀ (content : Option (List UInt8)) (c : LoaderConfig) (t : Termination) (j : Journal),
      ∃ added passed failed, Balanced t (GraphFile.loadFile content c) j added passed failed) ∧
    (∀ (g : Graph α) (c : ComponentsConfig) (t : Termination) (j : Journal),
      ∃ added passed failed, Balanced t (Components.compute g c) j added passed failed) ∧
    (∀ (g : Graph α) (c : LouvainConfig α) (t : Termination) (j : Journal),
      ∃ added passed failed, Balanced t (Louvain.compute g c) j added passed failed) := by
  have balanced : ∀ {β : Type} {m : Run β} {most : Nat},
      Traces (fun _ => True) (fun _ => 0) most m → ∀ t j,
        ∃ added passed failed, Balanced t m j added passed failed := by
    intro β m most traces t j
    obtain ⟨added, passed, failed, balanced, -⟩ := traces.balanced t j
    exact ⟨added, passed, failed, balanced⟩
  refine ⟨fun content c => ?_, fun g c => ?_, fun g c => ?_⟩
  · cases content with
    | none => exact balanced (Steps.traces (stepsFail _))
    | some bytes =>
      exact balanced (GraphFile.loadTraces (Works.any (GraphFile.readLinesSteps _ _))
        fun records b => Works.any (GraphFile.addAndBuildSteps _ _ _))
  · exact balanced (Components.computeTraces (Works.any (Components.uniteSteps _ _ _))
      fun sets => Works.any (Components.numberSteps _ _))
  · exact balanced (Louvain.computeTraces (Works.any (Louvain.firstLevelSteps _ _))
      (fun _ _ => trivial) (Louvain.workingAny c))

end CommunityGraph
