import CommunityGraph.Proofs.Entries
import CommunityGraph.Proofs.Louvain.Hierarchy

/-! The states that a search goes through. A search is told beside the levels that it applies: one state for
each level that is begun, then one that says why it came to an end, unless it has failed. -/
namespace CommunityGraph.Louvain
variable {α : Type}

def stepsThrough (before : SearchState) (states : List SearchState) :
    List (SearchState × SearchState) :=
  (before :: states).zip states

def finalState? : Except EngineError Bool → Option SearchState
  | .ok true => some .converged
  | .ok false => some .maxIterationsReached
  | .error _ => none

def climbing (number begun : Nat) (converged : Except EngineError Bool) : List SearchState :=
  (List.range' number begun).map .localMoving ++ (finalState? converged).toList

structure Applied (α : Type) where
  before : α
  after : α

variable [Weight α]

def Applied.gain (a : Applied α) : α := a.after - a.before

section Traced
variable (c : LouvainConfig α) (total : α)

def opening (number : Nat) (before : SearchState) (level : Level α) : Run (List Nat) := do
  transition before (.localMoving number)
  Run.assertRunning
  Run.phase "Local moving" level.network.nodeCount
    (LocalMoving.run ⟨level.network, level.degrees, total, c.concurrency, c.minBatchSize⟩
      c.coloring c.maxLocalIterations)

def leaving (number : Nat) (text : String) : Run Unit := do
  Run.log .debug text [("level", toString number)]
  transition (.localMoving number) .converged

def tracedLevels (t : Termination) : Nat → Nat → SearchState → Level α → Findings α → Journal →
    List (Applied α) × Except EngineError (Bool × Findings α) × Journal
  | left, number, before, level, f, j =>
      match opening c total number before level t j with
      | (.error e, j) => ([], .error e, j)
      | (.ok communities, j) =>
          match judge level total f.previous communities with
          | .unchanged =>
              ([], .ok (true, f), (leaving number "no node changed its community" t j).2)
          | .lowered =>
              ([], .ok (true, f),
                (leaving number "discarding level that lowers the modularity" t j).2)
          | .applied current gain dense count =>
              let here := SearchState.localMoving number
              let made : Applied α := ⟨f.previous, current⟩
              let stands := anchors level.representatives dense count
              let f := apply c number level stands dense current f
              let j := j.note (.log ⟨.debug, "level finished",
                [("level", toString number), ("communities", toString count)]⟩)
              if Weight.lt gain c.tolerance then
                ([made], .ok (true, f), j.note (.transition here .converged))
              else
                match left with
                | 0 => ([made], .ok (false, f), j.note (.transition here .maxIterationsReached))
                | left + 1 =>
                    match Run.phase "Aggregation" level.relationshipCount
                      (collapse level.network dense.toArray count c) t j with
                    | (.error e, j) => ([made], .error e, j)
                    | (.ok next, j) =>
                        match tracedLevels t left (number + 1) here (.ofGraph next stands) f j with
                        | (more, ended) => (made :: more, ended)

theorem tracedLevelsSame (t : Termination) (left number : Nat) (before : SearchState)
    (level : Level α) (f : Findings α) (j : Journal) :
    (tracedLevels c total t left number before level f j).2 =
      levels c total left number before level f t j := by
  -- As the number of levels left matters only where the next level is made, it is split there.
  induction left using Nat.strongRecOn generalizing number before level f j with
  | ind left ih =>
  have opened : opening c total number before level = _ := (Run.bindAssoc _ _ _).symm
  unfold levels tracedLevels
  dsimp only
  rw [← Run.bindAssoc, ← Run.bindAssoc, ← opened, Run.bindApply]
  generalize opening c total number before level t j = answer
  obtain ⟨outcome, later⟩ := answer
  cases outcome with
  | error e => rfl
  | ok communities =>
    dsimp only
    cases judge level total f.previous communities with
    | unchanged => rfl
    | lowered => rfl
    | applied current gain dense count =>
      dsimp only
      rw [Run.bindLog]
      by_cases small : Weight.lt gain c.tolerance = true
      · simp only [if_pos small]
        rfl
      · simp only [if_neg small]
        cases left with
        | zero => rfl
        | succ left =>
          dsimp only
          rw [Run.bindApply]
          generalize Run.phase "Aggregation" level.relationshipCount
            (collapse level.network dense.toArray count c) t _ = collapsed
          obtain ⟨outcome, last⟩ := collapsed
          cases outcome with
          | error e => rfl
          | ok next => exact ih left (Nat.lt_succ_self left) _ _ _ _ _

end Traced

section States

theorem climbingNext (number begun : Nat) (converged : Except EngineError Bool) :
    climbing number (begun + 1) converged =
      .localMoving number :: climbing (number + 1) begun converged := rfl

theorem stepsLast (before : SearchState) (states : List SearchState) :
    (stepsThrough before states).getLast?.map Prod.snd = states.getLast? := by
  induction states generalizing before with
  | nil => rfl
  | cons state states ih =>
    have next : stepsThrough before (state :: states) =
        (before, state) :: stepsThrough state states := rfl
    cases states with
    | nil => rfl
    | cons later states =>
      rw [next, List.getLast?_cons_cons, ← ih state]
      rfl

theorem stateThrough {before : SearchState} {states : List SearchState} {j j' : Journal}
    (passed : j'.changes = j.changes ++ stepsThrough before states) :
    j'.state = states.getLast?.getD j.state := by
  rw [j'.stateLast, j.stateLast, passed, List.getLast?_append, ← stepsLast before]
  cases (stepsThrough before states).getLast? <;> rfl

def endState (begun : Nat) : Except EngineError Bool → SearchState
  | .ok true => .converged
  | .ok false => .maxIterationsReached
  | .error _ => if begun = 0 then .initialized else .localMoving begun

theorem climbingLast (begun : Nat) (converged : Except EngineError Bool) :
    (climbing 1 begun converged).getLast?.getD .initialized = endState begun converged := by
  cases converged with
  | ok converged =>
    unfold climbing
    cases converged <;> rw [finalState?, Option.toList_some, List.getLast?_concat] <;> rfl
  | error e =>
    cases begun with
    | zero => rfl
    | succ begun =>
      have last : climbing 1 (begun + 1) (.error e) =
          (List.range' 1 begun).map .localMoving ++ [.localMoving (1 + begun)] := by
        simp [climbing, finalState?, List.range'_1_concat]
      rw [last, List.getLast?_concat, Nat.add_comm]
      rfl

end States

section Ascent
variable {c : LouvainConfig α} {total : α}

/-- Levels applied one on the other, none of them with a loss, and with as much gain as the tolerance asks
for, except perhaps the last one. -/
structure Gains (c : LouvainConfig α) (applied : List (Applied α)) : Prop where
  chained : applied.IsChain fun first next => first.after = next.before
  lossless : ∀ level ∈ applied, Weight.lt level.gain Weight.zero = false
  tolerated : ∀ level ∈ applied.dropLast, Weight.lt level.gain c.tolerance = false

def Sufficient (c : LouvainConfig α) (applied : List (Applied α)) : Prop :=
  ∀ level ∈ applied.getLast?, Weight.lt level.gain c.tolerance = false

structure Adds (f : Findings α) (applied : List (Applied α)) (f' : Findings α) : Prop where
  ranLevels : f'.ranLevels = f.ranLevels + applied.length
  modularities : f'.modularities = f.modularities ++ applied.map Applied.after
  previous : f'.previous = (applied.getLast?.map Applied.after).getD f.previous

structure Ascends (c : LouvainConfig α) (left number : Nat) (before : SearchState) (f : Findings α)
    (j : Journal) (begun : Nat)
    (answer : List (Applied α) × Except EngineError (Bool × Findings α) × Journal) : Prop where
  limit : begun ≤ left + 1
  changes : answer.2.2.changes =
    j.changes ++ stepsThrough before (climbing number begun (answer.2.1.map Prod.fst))
  count : begun ≤ answer.1.length + 1 ∧ answer.1.length ≤ begun
  start : ∀ level ∈ answer.1.head?, level.before = f.previous
  gains : Gains c answer.1
  exhausted : finalState? (answer.2.1.map Prod.fst) = some .maxIterationsReached ↔
    answer.1.length = left + 1 ∧ Sufficient c answer.1
  found : ∀ converged f', answer.2.1 = .ok (converged, f') → Adds f answer.1 f'

variable {left number : Nat} {before : SearchState} {f f' : Findings α} {j j' : Journal}
  {made : Applied α} {outcome : Except EngineError (Bool × Findings α)}

omit [Weight α] in
theorem applyAdds {level : Level α} {anchors : Array Nat} {dense : List Nat}
    (counted : f.ranLevels + 1 = number) :
    Adds f [made] (apply c number level anchors dense made.after f) := by
  unfold apply
  dsimp only
  split <;> exact ⟨counted.symm, rfl, rfl⟩

omit [Weight α] in
theorem Adds.cons {more : List (Applied α)} {f'' : Findings α} (first : Adds f [made] f')
    (rest : Adds f' more f'') : Adds f (made :: more) f'' where
  ranLevels := by
    rw [rest.ranLevels, first.ranLevels, List.length_singleton, List.length_cons]
    omega
  modularities := by rw [rest.modularities, first.modularities, List.append_assoc]; rfl
  previous := by
    rw [rest.previous, first.previous]
    cases more with
    | nil => rfl
    | cons level more =>
      have last : (level :: more).getLast? = some _ :=
        List.getLast?_eq_some_getLast (List.cons_ne_nil _ _)
      simp only [List.getLast?_cons_cons, last, Option.map_some, Option.getD_some]

theorem Ascends.unapplied (changes : j'.changes =
      j.changes ++ stepsThrough before (climbing number 1 (outcome.map Prod.fst)))
    (ends : (∃ e, outcome = .error e) ∨ outcome = .ok (true, f)) :
    Ascends c left number before f j 1 ([], outcome, j') where
  limit := Nat.le_add_left 1 left
  changes := changes
  count := ⟨Nat.le_refl 1, Nat.zero_le 1⟩
  start := by simp
  gains := ⟨.nil, by simp, by simp⟩
  exhausted := by rcases ends with ⟨e, rfl⟩ | rfl <;> simp [finalState?, Except.map]
  found converged f' ended := by
    rcases ends with ⟨e, rfl⟩ | rfl
    · cases ended
    · cases ended
      exact ⟨rfl, (List.append_nil _).symm, rfl⟩

theorem Ascends.applied (changes : j'.changes =
      j.changes ++ stepsThrough before (climbing number 1 (outcome.map Prod.fst)))
    (start : made.before = f.previous) (lossless : Weight.lt made.gain Weight.zero = false)
    (exhausted : finalState? (outcome.map Prod.fst) = some .maxIterationsReached ↔
      left = 0 ∧ Weight.lt made.gain c.tolerance = false)
    (found : ∀ converged f', outcome = .ok (converged, f') → Adds f [made] f') :
    Ascends c left number before f j 1 ([made], outcome, j') where
  limit := Nat.le_add_left 1 left
  changes := changes
  count := ⟨Nat.le_succ 1, Nat.le_refl 1⟩
  start := by simpa using start
  gains := ⟨.singleton made, by simpa using lossless, by simp⟩
  exhausted := by
    have alone : Sufficient c [made] ↔ Weight.lt made.gain c.tolerance = false := by
      simp [Sufficient]
    rw [exhausted, alone, List.length_singleton]
    exact and_congr_left fun _ => by omega
  found := found

theorem Ascends.next {begun : Nat} {more : List (Applied α)} {between : Journal}
    (opened : between.changes = j.changes ++ [(before, .localMoving number)])
    (start : made.before = f.previous) (lossless : Weight.lt made.gain Weight.zero = false)
    (tolerated : Weight.lt made.gain c.tolerance = false) (adds : Adds f [made] f')
    (rest : Ascends c left (number + 1) (.localMoving number) f' between begun (more, outcome, j')) :
    Ascends c (left + 1) number before f j (begun + 1) (made :: more, outcome, j') where
  limit := Nat.succ_le_succ rest.limit
  changes := by
    rw [rest.changes, opened, List.append_assoc]
    rfl
  count := ⟨Nat.succ_le_succ rest.count.1, Nat.succ_le_succ rest.count.2⟩
  start := by simpa using start
  gains := by
    refine ⟨List.isChain_cons.mpr ⟨fun level head => ?_, rest.gains.chained⟩,
      List.forall_mem_cons.mpr ⟨lossless, rest.gains.lossless⟩, ?_⟩
    · rw [rest.start level head, adds.previous]
      rfl
    · cases more with
      | nil => simp
      | cons level more =>
        rw [List.dropLast_cons_cons]
        exact List.forall_mem_cons.mpr ⟨tolerated, rest.gains.tolerated⟩
  exhausted := by
    rw [rest.exhausted]
    cases more with
    | nil => simp
    | cons level more => simp [Sufficient]
  found converged f'' ended := adds.cons (rest.found converged f'' ended)

theorem openingChanges (number : Nat) (before : SearchState) (level : Level α) (t : Termination)
    (j : Journal) : (opening c total number before level t j).2.changes =
      j.changes ++ [(before, .localMoving number)] := by
  have rest : Run.Steps Entry.Steady (do
      Run.assertRunning
      Run.phase "Local moving" level.network.nodeCount (LocalMoving.run
        ⟨level.network, level.degrees, total, c.concurrency, c.minBatchSize⟩ c.coloring
        c.maxLocalIterations)) :=
    Run.stepsRunning.bind fun _ => (LocalMoving.runSteps _ _ _).steady _ _
  exact (rest.changes t (j.note (.transition before (.localMoving number)))).trans
    (Journal.changesNote j _)

theorem endingChanges {line : LogLine} {converged : Bool} {state : SearchState}
    (opened : j'.changes = j.changes ++ [(before, .localMoving number)])
    (final : finalState? (.ok converged) = some state) :
    ((j'.note (.log line)).note (.transition (.localMoving number) state)).changes =
      j.changes ++ stepsThrough before (climbing number 1 (.ok converged)) := by
  rw [Journal.changesNote, Journal.changesLogged, opened, climbingNext, climbing, final,
    List.append_assoc]
  rfl

theorem tracedLevelsAscend (t : Termination) (left number : Nat) (before : SearchState)
    (level : Level α) (f : Findings α) (j : Journal) (counted : f.ranLevels + 1 = number) :
    ∃ begun, Ascends c left number before f j begun
      (tracedLevels c total t left number before level f j) := by
  induction left using Nat.strongRecOn generalizing number before level f j with
  | ind left ih =>
  have opened := @openingChanges _ _ c total number before level t j
  unfold tracedLevels
  generalize opening c total number before level t j = answer at opened
  obtain ⟨outcome, later⟩ := answer
  cases outcome with
  | error e => exact ⟨1, .unapplied opened (.inl ⟨e, rfl⟩)⟩
  | ok communities =>
    dsimp only at opened ⊢
    cases judged : judge level total f.previous communities with
    | unchanged => exact ⟨1, .unapplied (endingChanges opened rfl) (.inr rfl)⟩
    | lowered => exact ⟨1, .unapplied (endingChanges opened rfl) (.inr rfl)⟩
    | applied current gain dense count =>
      obtain ⟨-, -, -, -, rfl, lossless⟩ := judgeApplied judged
      let made : Applied α := ⟨f.previous, current⟩
      have adds : Adds f [made] (apply c number level
        (anchors level.representatives dense count) dense current f) := applyAdds counted
      have only : ∀ (converged converged' : Bool) (f' : Findings α),
          (.ok (converged, apply c number level (anchors level.representatives dense count) dense
            current f) : Except EngineError (Bool × Findings α)) = .ok (converged', f') →
          Adds f [made] f' := by
        intro converged converged' f' same
        cases same
        exact adds
      dsimp only
      by_cases small : Weight.lt (current - f.previous) c.tolerance = true
      · rw [if_pos small]
        refine ⟨1, .applied (endingChanges opened rfl) rfl lossless ?_ (only true)⟩
        simp [finalState?, Except.map, Applied.gain, small]
      · rw [if_neg small]
        have tolerated : Weight.lt made.gain c.tolerance = false := Bool.not_eq_true _ ▸ small
        cases left with
        | zero =>
          refine ⟨1, .applied (endingChanges opened rfl) rfl lossless ?_ (only false)⟩
          simpa [finalState?, Except.map] using tolerated
        | succ left =>
          dsimp only
          let noted := later.note (.log ⟨.debug, "level finished",
            [("level", toString number), ("communities", toString count)]⟩)
          have steady := (collapseSteps level.network dense.toArray count c).steady "Aggregation"
            level.relationshipCount
          have between := (steady.changes t noted).trans ((later.changesLogged _).trans opened)
          generalize Run.phase "Aggregation" level.relationshipCount
            (collapse level.network dense.toArray count c) t noted = collapsed at between ⊢
          obtain ⟨outcome, last⟩ := collapsed
          cases outcome with
          | error e =>
            refine ⟨1, .applied between rfl lossless ?_ nofun⟩
            simp [finalState?, Except.map]
          | ok next =>
            have rest := ih left (Nat.lt_succ_self left) (number + 1) (.localMoving number)
              (.ofGraph next (anchors level.representatives dense count)) _ last
              (congrArg (· + 1) (adds.ranLevels.trans counted))
            obtain ⟨begun, rest⟩ := rest
            exact ⟨begun + 1, rest.next between rfl lossless tolerated adds⟩

end Ascent

section Traced
variable (g : Graph α) (c : LouvainConfig α)

def starting : Run (Level α × α × α) := do
  Run.assertRunning
  Run.phase "Initialization" g.nodeCount (firstLevel g c)

def reporting (answer : Bool × Findings α) : Run (LouvainResult α) := do
  Run.log .info "louvain finished" []
  pure {
    communities := (present c answer.2.sets).1
    modularities := answer.2.modularities
    modularity := answer.2.previous
    ranLevels := answer.2.ranLevels
    didConverge := answer.1
    intermediate := if c.includeIntermediate then some answer.2.snapshots else none }

def traced (t : Termination) (j : Journal) :
    List (Applied α) × Except EngineError (LouvainResult α) × Journal :=
  match starting g c t j with
  | (.error e, j) => ([], .error e, j)
  | (.ok (level, total, modularity), j) =>
      match tracedLevels c total t (c.maxIterations - 1) 1 .initialized level
        ⟨.make g.nodeCount, modularity, [], 0, []⟩ j with
      | (applied, .error e, j) => (applied, .error e, j)
      | (applied, .ok answer, j) => (applied, reporting c answer t j)

theorem tracedSame (t : Termination) (j : Journal) : (traced g c t j).2 = compute g c t j := by
  have begun : starting g c = Run.assertRunning >>= fun _ =>
    Run.phase "Initialization" g.nodeCount (firstLevel g c) := rfl
  unfold compute traced
  rw [← Run.bindAssoc, ← begun, Run.bindApply]
  generalize starting g c t j = answer
  obtain ⟨outcome, later⟩ := answer
  cases outcome with
  | error e => rfl
  | ok first =>
    obtain ⟨level, total, modularity⟩ := first
    dsimp only
    rw [Run.bindApply, ← tracedLevelsSame]
    generalize tracedLevels c total t (c.maxIterations - 1) 1 .initialized level
      ⟨.make g.nodeCount, modularity, [], 0, []⟩ later = answer
    obtain ⟨applied, outcome, last⟩ := answer
    cases outcome <;> rfl

end Traced

section Results
variable {g : Graph α} {c : LouvainConfig α} {t : Termination} {j j' : Journal}

/-- The states of a search that has begun so many levels: they follow each other without a gap, and what it
comes to shows in the last one. -/
structure Visits (j j' : Journal) (begun : Nat) (outcome : Except EngineError (LouvainResult α)) :
    Prop where
  changes : j'.changes = j.changes ++
    stepsThrough .initialized (climbing 1 begun (outcome.map LouvainResult.didConverge))
  answered : (∃ r, outcome = .ok r) ↔ j'.state = .converged ∨ j'.state = .maxIterationsReached
  converged : ∀ r, outcome = .ok r → (r.didConverge = true ↔ j'.state = .converged)
  failed : ∀ e, outcome = .error e →
    j'.state = if begun = 0 then .initialized else .localMoving begun

structure Passes (g : Graph α) (c : LouvainConfig α) (j j' : Journal) (begun : Nat)
    (applied : List (Applied α)) (outcome : Except EngineError (LouvainResult α)) : Prop where
  limit : begun ≤ c.maxIterations
  visits : Visits j j' begun outcome
  count : begun ≤ applied.length + 1 ∧ applied.length ≤ begun
  start : ∀ level ∈ applied.head?, ∃ first total,
    Run.Answers (firstLevel g c) (first, total, level.before)
  gains : Gains c applied
  exhausted : j'.state = .maxIterationsReached ↔
    applied.length = c.maxIterations ∧ Sufficient c applied
  reported : ∀ r, outcome = .ok r → r.ranLevels = applied.length ∧
    r.modularities = applied.map Applied.after ∧
    ∀ level ∈ applied.getLast?, r.modularity = level.after

section Visits
variable {begun : Nat} {outcome : Except EngineError (LouvainResult α)}

omit [Weight α] in
theorem endsVisited (fresh : j.state = .initialized) (changes : j'.changes = j.changes ++
      stepsThrough .initialized (climbing 1 begun (outcome.map LouvainResult.didConverge))) :
    j'.state = endState begun (outcome.map LouvainResult.didConverge) := by
  rw [stateThrough changes, fresh, climbingLast]

omit [Weight α] in
theorem statesVisited (fresh : j.state = .initialized) (changes : j'.changes = j.changes ++
      stepsThrough .initialized (climbing 1 begun (outcome.map LouvainResult.didConverge))) :
    Visits j j' begun outcome := by
  have state := endsVisited fresh changes
  refine ⟨changes, ?_, ?_, ?_⟩
  · rw [state]
    cases outcome with
    | ok r => cases ended : r.didConverge <;> simp [Except.map, endState, ended]
    | error e => by_cases none : begun = 0 <;> simp [Except.map, endState, none]
  · rintro r rfl
    rw [state]
    cases ended : r.didConverge <;> simp [Except.map, endState, ended]
  · rintro e rfl
    exact state

theorem endStateExhausted (begun : Nat) (converged : Except EngineError Bool) :
    endState begun converged = .maxIterationsReached ↔
      finalState? converged = some .maxIterationsReached := by
  cases converged with
  | ok converged => cases converged <;> simp [endState, finalState?]
  | error e => by_cases none : begun = 0 <;> simp [endState, finalState?, none]

end Visits

theorem startingChanges (t : Termination) (j : Journal) :
    (starting g c t j).2.changes = j.changes :=
  (Run.stepsRunning.bind fun _ => (firstLevelSteps g c).steady _ _).changes t j

theorem startingAnswers {first : Level α × α × α} (ran : starting g c t j = (.ok first, j')) :
    Run.Answers (firstLevel g c) first := by
  have answers : Run.Answers (starting g c) first := ⟨t, j, congrArg Prod.fst ran⟩
  obtain ⟨-, -, phased⟩ := Run.answersBind answers
  exact Run.answersPhase phased

theorem Ascends.passes {total : α} {first : Level α} {sets : DisjointSet} {modularity : α}
    {begun : Nat} {applied : List (Applied α)} {found : Except EngineError (Bool × Findings α)}
    {outcome : Except EngineError (LouvainResult α)} {between last : Journal}
    (ascends : Ascends c (c.maxIterations - 1) 1 .initialized ⟨sets, modularity, [], 0, []⟩ between
      begun (applied, found, last))
    (allowed : 0 < c.maxIterations) (fresh : j.state = .initialized)
    (answers : Run.Answers (firstLevel g c) (first, total, modularity))
    (before : between.changes = j.changes) (after : j'.changes = last.changes)
    (same : outcome.map LouvainResult.didConverge = found.map Prod.fst)
    (reported : ∀ r, outcome = .ok r → ∃ converged f', found = .ok (converged, f') ∧
      r.ranLevels = f'.ranLevels ∧ r.modularities = f'.modularities ∧ r.modularity = f'.previous) :
    Passes g c j j' begun applied outcome := by
  have counted : c.maxIterations - 1 + 1 = c.maxIterations := Nat.succ_pred_eq_of_pos allowed
  have changes := after.trans ascends.changes
  rw [before, ← same] at changes
  refine ⟨counted ▸ ascends.limit, statesVisited fresh changes, ascends.count, ?_, ascends.gains,
    ?_, ?_⟩
  · intro level head
    rw [ascends.start level head]
    exact ⟨first, total, answers⟩
  · rw [endsVisited fresh changes, endStateExhausted, same, ascends.exhausted, counted]
  · intro r ended
    obtain ⟨converged, f', known, ranLevels, modularities, modularity⟩ := reported r ended
    have adds := ascends.found converged f' known
    refine ⟨ranLevels.trans (adds.ranLevels.trans (Nat.zero_add _)),
      modularities.trans adds.modularities, fun level tail => ?_⟩
    rw [modularity, adds.previous, Option.mem_def.mp tail]
    rfl

theorem searchPasses (valid : c.validate = .ok ()) (fresh : j.state = .initialized) :
    (traced g c t j).2 = compute g c t j ∧ ∃ begun,
      Passes g c j (compute g c t j).2 begun (traced g c t j).1 (compute g c t j).1 := by
  refine ⟨tracedSame g c t j, ?_⟩
  have allowed := validateIterations valid
  have unchanged := @startingChanges _ _ g c t j
  rw [← tracedSame]
  unfold traced
  cases started : starting g c t j with
  | mk outcome later =>
  rw [started] at unchanged
  cases outcome with
  | error e =>
    have changes : later.changes = j.changes ++ stepsThrough .initialized (climbing 1 0
        ((.error e : Except EngineError (LouvainResult α)).map LouvainResult.didConverge)) :=
      unchanged.trans (List.append_nil _).symm
    have visits := statesVisited fresh changes
    refine ⟨0, Nat.zero_le _, visits, by simp, by simp, ⟨.nil, by simp, by simp⟩, ?_, ?_⟩
    · rw [visits.failed e rfl]
      simp [allowed.ne]
    · exact nofun
  | ok first =>
    obtain ⟨level, total, modularity⟩ := first
    dsimp only at unchanged ⊢
    obtain ⟨begun, ascends⟩ := @tracedLevelsAscend _ _ c total t (c.maxIterations - 1) 1
      .initialized level ⟨.make g.nodeCount, modularity, [], 0, []⟩ later rfl
    generalize tracedLevels c total t (c.maxIterations - 1) 1 .initialized level
      ⟨.make g.nodeCount, modularity, [], 0, []⟩ later = answer at ascends ⊢
    obtain ⟨applied, outcome, last⟩ := answer
    have answers := startingAnswers started
    cases outcome with
    | error e => exact ⟨begun, ascends.passes allowed fresh answers unchanged rfl rfl nofun⟩
    | ok found =>
      refine ⟨begun, ascends.passes allowed fresh answers unchanged (last.changesLogged _) rfl ?_⟩
      intro r same
      cases same
      exact ⟨_, _, rfl, rfl, rfl, rfl⟩

theorem samplePasses : ∃ (g : Graph Rat) (r : LouvainResult Rat) (j : Journal) (begun : Nat),
    sampleSearch.validate = .ok () ∧ Journal.empty.state = .initialized ∧
    compute g sampleSearch .always .empty = (.ok r, j) ∧ r.communities = [0, 0, 0] ∧
    Passes g sampleSearch .empty j begun (traced g sampleSearch .always .empty).1 (.ok r) := by
  obtain ⟨g, r, j, made, ran, labels⟩ := sampleRuns
  have passes := searchPasses (g := g) (c := sampleSearch) (t := .always) (j := .empty) rfl rfl
  rw [ran] at passes
  obtain ⟨-, begun, passes⟩ := passes
  exact ⟨g, r, j, begun, rfl, rfl, ran, labels, passes⟩

end Results
end CommunityGraph.Louvain
