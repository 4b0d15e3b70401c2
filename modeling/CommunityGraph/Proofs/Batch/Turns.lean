import CommunityGraph.Proofs.Batch.Draining

/-! Workers that share a queue. In its turn a worker asks the flag, claims a batch and works on it, unless
the work has failed before. What happens then is the same whichever worker's turn it is: the batches are
worked on in order, each once, and the first thing to go wrong is the last to happen. -/
namespace CommunityGraph.BatchQueue
variable {σ : Type}

inductive Happening where
  | asked (running : Bool)
  | ran (batch : Batch) (outcome : Except EngineError Unit)

def fault? : Except EngineError Unit → Option EngineError
  | .ok () => none
  | .error e => some e

def Happening.fault? : Happening → Option EngineError
  | asked true => none
  | asked false => some .terminated
  | ran _ outcome => BatchQueue.fault? outcome

def Happening.answer? : Happening → Option Bool
  | asked running => some running
  | ran _ _ => none

def Happening.batch? : Happening → Option Batch
  | asked _ => none
  | ran batch _ => some batch

def answersIn (happened : List Happening) : List Bool := happened.filterMap Happening.answer?

def batchesIn (happened : List Happening) : List Batch := happened.filterMap Happening.batch?

structure Crew (σ : Type) where
  queue : BatchQueue
  working : Nat
  fault : Option EngineError
  state : σ
  journal : Journal

def Crew.outcome (crew : Crew σ) : Except EngineError Unit :=
  match crew.fault with
  | none => .ok ()
  | some e => .error e

def crew (q : BatchQueue) (workers : Nat) (state : σ) (j : Journal) : Crew σ :=
  ⟨q, max workers 1, none, state, j⟩

section Turns
variable (action : Action σ) (t : Termination)

inductive Turn : Crew σ → List Happening → Crew σ → Prop where
  | leaves (q : BatchQueue) (working : Nat) (e : EngineError) (state : σ) (j : Journal) :
      Turn ⟨q, working + 1, some e, state, j⟩ [] ⟨q, working, some e, state, j⟩
  | stopped {j : Journal} (lowered : t.running j.checks j = false) (q : BatchQueue)
      (working : Nat) (state : σ) :
      Turn ⟨q, working + 1, none, state, j⟩ [.asked false]
        ⟨q, working, some .terminated, state, j.checked⟩
  | idles {j : Journal} {q : BatchQueue} (running : t.running j.checks j = true)
      (none : q.pop.1 = none) (working : Nat) (state : σ) :
      Turn ⟨q, working + 1, .none, state, j⟩ [.asked true]
        ⟨q.pop.2, working, .none, state, j.checked⟩
  | works {j later : Journal} {q : BatchQueue} {batch : Batch} {state after : σ}
      (running : t.running j.checks j = true) (found : q.pop.1 = some batch)
      (worked : action batch state t j.checked = ((.ok (), after), later)) (working : Nat) :
      Turn ⟨q, working + 1, none, state, j⟩ [.asked true, .ran batch (.ok ())]
        ⟨q.pop.2, working + 1, none, after, later⟩
  | fails {j later : Journal} {q : BatchQueue} {batch : Batch} {state after : σ} {e : EngineError}
      (running : t.running j.checks j = true) (found : q.pop.1 = some batch)
      (failed : action batch state t j.checked = ((.error e, after), later)) (working : Nat) :
      Turn ⟨q, working + 1, none, state, j⟩ [.asked true, .ran batch (.error e)]
        ⟨q.pop.2, working, some e, after, later⟩

inductive Turns : Crew σ → List Happening → Crew σ → Prop where
  | nil (crew : Crew σ) : Turns crew [] crew
  | cons {crew between last : Crew σ} {now later : List Happening}
      (turn : Turn action t crew now between) (rest : Turns between later last) :
      Turns crew (now ++ later) last

structure Shift (start : Crew σ) (happened : List Happening) (final : Crew σ) : Prop where
  turns : Turns action t start happened final
  done : final.working = 0

end Turns

variable {action : Action σ} {t : Termination}

theorem Turn.unique {crew next next' : Crew σ} {now now' : List Happening}
    (one : Turn action t crew now next) (other : Turn action t crew now' next') :
    now = now' ∧ next = next' := by
  cases one <;> cases other <;> simp_all

theorem Shift.unique {start final final' : Crew σ} {happened happened' : List Happening}
    (one : Shift action t start happened final) (other : Shift action t start happened' final') :
    happened = happened' ∧ final = final' := by
  obtain ⟨turns, done⟩ := one
  obtain ⟨turns', done'⟩ := other
  induction turns generalizing happened' with
  | nil crew =>
    cases turns' with
    | nil => exact ⟨rfl, rfl⟩
    | cons turn => cases turn <;> simp at done
  | cons turn _ ih =>
    cases turns' with
    | nil => cases turn <;> simp at done'
    | cons turn' rest' =>
      obtain ⟨rfl, rfl⟩ := turn.unique turn'
      obtain ⟨rfl, rfl⟩ := ih done rest'
      exact ⟨rfl, rfl⟩

theorem Turns.append {first middle last : Crew σ} {before after : List Happening}
    (one : Turns action t first before middle) (two : Turns action t middle after last) :
    Turns action t first (before ++ after) last := by
  induction one with
  | nil => exact two
  | cons turn _ ih =>
    rw [List.append_assoc]
    exact .cons turn (ih two)

theorem Turn.once {crew next : Crew σ} {now : List Happening} (turn : Turn action t crew now next) :
    Turns action t crew now next := by
  have single := Turns.cons turn (.nil next)
  rwa [List.append_nil] at single

section Consume
variable {source : BatchSource} {batches : List Batch}

theorem stoppedTurn {j : Journal} (lowered : t.running j.checks j = false) (q : BatchQueue)
    (others : Nat) (state : σ) :
    Turns action t ⟨q, others + 1, none, state, j⟩ [.asked false]
      ⟨q, others, some .terminated, state, j.checked⟩ :=
  (Turn.stopped lowered q others state).once

theorem idleTurn (hands : source.Hands batches) {index : Nat} (beyond : batches.length ≤ index)
    {j : Journal} (running : t.running j.checks j = true) (others : Nat) (state : σ) :
    Turns action t ⟨⟨source, index⟩, others + 1, none, state, j⟩ [.asked true]
      ⟨⟨source, index + 1⟩, others, none, state, j.checked⟩ :=
  have none : (BatchQueue.mk source index).pop.1 = none :=
    (hands.batch index).trans (List.getElem?_eq_none_iff.mpr beyond)
  (Turn.idles running none others state).once

theorem workNext {left index : Nat} {batch : Batch} {state after : σ} {j later : Journal}
    (running : t.running j.checks j = true) (found : source.batch? index = some batch)
    (did : action batch state t j.checked = ((.ok (), after), later)) :
    work source action (left + 1) index state t j = work source action left (index + 1) after t later := by
  rw [work]
  simp only [Watched.check, running, found, did]

theorem workTurns (hands : source.Hands batches) (action : Action σ) (t : Termination)
    {left index : Nat} (enough : batches.length ≤ index + left) (others : Nat) (state : σ) (j : Journal) :
    ∃ happened rest, Turns action t ⟨⟨source, index⟩, others + 1, none, state, j⟩ happened
        ⟨⟨source, rest⟩, others, fault? (work source action left index state t j).1.1,
          (work source action left index state t j).1.2,
          (work source action left index state t j).2⟩ ∧
      ((work source action left index state t j).1.1 = .ok () → batches.length ≤ rest) := by
  induction left generalizing index state j with
  | zero =>
    cases running : t.running j.checks j with
    | false =>
      simp only [work, Watched.check, running]
      exact ⟨_, index, stoppedTurn running _ others state, fun ok => by cases ok⟩
    | true =>
      simp only [work, Watched.check, running]
      exact ⟨_, index + 1, idleTurn hands enough running others state, fun _ => by omega⟩
  | succ left ih =>
    cases running : t.running j.checks j with
    | false =>
      simp only [work, Watched.check, running]
      exact ⟨_, index, stoppedTurn running _ others state, fun ok => by cases ok⟩
    | true =>
      cases found : source.batch? index with
      | none =>
        have beyond := List.getElem?_eq_none_iff.mp ((hands.batch index).symm.trans found)
        simp only [work, Watched.check, running, found]
        exact ⟨_, index + 1, idleTurn hands beyond running others state, fun _ => by omega⟩
      | some batch =>
        cases did : action batch state t j.checked with
        | mk answer later =>
          obtain ⟨outcome, after⟩ := answer
          cases outcome with
          | error e =>
            simp only [work, Watched.check, running, found, did]
            exact ⟨_, index + 1, (Turn.fails (q := ⟨source, index⟩) running found did others).once,
              fun ok => by cases ok⟩
          | ok =>
            rw [workNext running found did]
            have fewer : batches.length ≤ index + 1 + left := by omega
            obtain ⟨happened, rest, turns, all⟩ := ih fewer after later
            exact ⟨_, rest, .cons (.works (q := ⟨source, index⟩) running found did others) turns,
              all⟩

theorem leaveTurns (q : BatchQueue) (working : Nat) (e : EngineError) (state : σ) (j : Journal) :
    Turns action t ⟨q, working, some e, state, j⟩ [] ⟨q, 0, some e, state, j⟩ := by
  induction working with
  | zero => exact .nil _
  | succ working ih => exact .cons (.leaves q working e state j) ih

theorem idleTurns (hands : source.Hands batches) (action : Action σ) (t : Termination)
    {index : Nat} (beyond : batches.length ≤ index) (working : Nat) (state : σ) (j : Journal) :
    ∃ happened rest, Turns action t ⟨⟨source, index⟩, working, none, state, j⟩ happened
      ⟨⟨source, rest⟩, 0, fault? (idle working t j).1, state, (idle working t j).2⟩ := by
  induction working generalizing index j with
  | zero => exact ⟨[], index, .nil _⟩
  | succ working ih =>
    cases running : t.running j.checks j with
    | false =>
      simp only [idle, Watched.check, running]
      exact ⟨_, index, (stoppedTurn running _ working state).append
        (leaveTurns _ working .terminated state j.checked)⟩
    | true =>
      simp only [idle, Watched.check, running]
      have further : batches.length ≤ index + 1 := Nat.le_succ_of_le beyond
      obtain ⟨happened, rest, turns⟩ := ih further j.checked
      exact ⟨_, rest, (idleTurn hands beyond running working state).append turns⟩

theorem consumeShift {q : BatchQueue} (made : q.Made) (workers : Nat) (action : Action σ) (state : σ)
    (t : Termination) (j : Journal) :
    ∃ happened final, Shift action t (q.crew workers state j) happened final ∧
      q.consume workers action state t j = ((final.outcome, final.state), final.journal) := by
  obtain ⟨batches, hands⟩ := made.hands
  obtain ⟨source, claimed⟩ := q
  have enough : batches.length ≤ claimed + (source.count - claimed) := by
    rw [hands.count]
    omega
  have first : max workers 1 = max workers 1 - 1 + 1 := by omega
  -- the first worker does all there is to do, the others come to an empty queue or to a fault
  obtain ⟨happened, rest, turns, all⟩ :=
    workTurns hands action t enough (max workers 1 - 1) state j
  rw [← first] at turns
  unfold consume count
  generalize work source action (source.count - claimed) claimed state t j = answer at turns all
  obtain ⟨⟨outcome, after⟩, later⟩ := answer
  cases outcome with
  | error e => exact ⟨_, _, ⟨turns.append (leaveTurns _ _ e after later), rfl⟩, rfl⟩
  | ok =>
    obtain ⟨idled, last, idling⟩ :=
      idleTurns hands action t (all rfl) (max workers 1 - 1) after later
    refine ⟨_, _, ⟨turns.append idling, rfl⟩, ?_⟩
    dsimp only
    generalize idle (max workers 1 - 1) t later = answer
    obtain ⟨outcome, last⟩ := answer
    cases outcome <;> rfl

end Consume

section Courses

inductive Course : List Batch → Nat → List Happening → Except EngineError Unit → Prop where
  | finished : Course [] 0 [] (.ok ())
  | stopped (batches : List Batch) (working : Nat) :
      Course batches (working + 1) [.asked false] (.error .terminated)
  | failed (batch : Batch) (batches : List Batch) (working : Nat) (e : EngineError) :
      Course (batch :: batches) (working + 1) [.asked true, .ran batch (.error e)] (.error e)
  | idled {working : Nat} {later : List Happening} {outcome : Except EngineError Unit}
      (rest : Course [] working later outcome) :
      Course [] (working + 1) (.asked true :: later) outcome
  | worked {batches : List Batch} {working : Nat} {later : List Happening}
      {outcome : Except EngineError Unit} (batch : Batch)
      (rest : Course batches (working + 1) later outcome) :
      Course (batch :: batches) (working + 1) (.asked true :: .ran batch (.ok ()) :: later) outcome

theorem leftTurns {crew final : Crew σ} {happened : List Happening} {e : EngineError}
    (turns : Turns action t crew happened final) (gone : crew.fault = some e) :
    happened = [] ∧ final.fault = some e := by
  induction turns with
  | nil => exact ⟨rfl, gone⟩
  | cons turn _ ih =>
    cases turn with
    | leaves => exact ih gone
    | stopped => cases gone
    | idles => cases gone
    | works => cases gone
    | fails => cases gone

theorem Turns.course {batches : List Batch} {crew final : Crew σ} {happened : List Happening}
    (turns : Turns action t crew happened final) (done : final.working = 0)
    (hands : crew.queue.source.Hands batches) (sound : crew.fault = none)
    (some : 0 < crew.working ∨ batches.length ≤ crew.queue.claimed) :
    Course (batches.drop crew.queue.claimed) crew.working happened final.outcome := by
  -- `some` carries the induction: the last worker leaves without a fault only from an empty queue
  induction turns with
  | nil crew =>
    rw [done] at some ⊢
    rw [Crew.outcome, sound, List.drop_eq_nil_of_le (by omega)]
    exact .finished
  | cons turn rest ih =>
    cases turn with
    | leaves => cases sound
    | stopped _ q working state =>
      obtain ⟨rfl, fault⟩ := leftTurns rest rfl
      rw [Crew.outcome, fault]
      exact .stopped _ working
    | @idles j q _ none working state =>
      rw [popHanded hands, List.getElem?_eq_none_iff] at none
      have beyond : batches.length ≤ q.claimed + 1 := Nat.le_succ_of_le none
      have later := ih done hands rfl (.inr beyond)
      simp only [pop, List.drop_eq_nil_of_le none, List.drop_eq_nil_of_le beyond] at later ⊢
      exact .idled later
    | @works j _ q batch _ _ _ found _ working =>
      rw [popHanded hands] at found
      obtain ⟨inside, rfl⟩ := List.getElem?_eq_some_iff.mp found
      have later := ih done hands rfl (.inl (Nat.succ_pos _))
      simp only [List.drop_eq_getElem_cons inside]
      exact .worked _ later
    | @fails j _ q batch _ _ e _ found _ working =>
      rw [popHanded hands] at found
      obtain ⟨inside, rfl⟩ := List.getElem?_eq_some_iff.mp found
      obtain ⟨rfl, fault⟩ := leftTurns rest rfl
      rw [Crew.outcome, fault]
      simp only [List.drop_eq_getElem_cons inside]
      exact .failed _ _ working e

variable {batches : List Batch} {working : Nat} {happened : List Happening}
  {outcome : Except EngineError Unit}

theorem Course.inOrder (course : Course batches working happened outcome) :
    batchesIn happened <+: batches := by
  induction course with
  | finished => exact List.nil_prefix
  | stopped => exact List.nil_prefix
  | failed batch batches => exact List.prefix_append [batch] batches
  | idled _ ih => exact ih
  | worked batch _ ih => exact List.cons_prefix_cons.mpr ⟨rfl, ih⟩

theorem Course.checks (course : Course batches working happened outcome) (ok : outcome = .ok ()) :
    (answersIn happened).length = batches.length + working := by
  induction course with
  | finished => rfl
  | stopped => cases ok
  | failed => cases ok
  | idled _ ih =>
    have rest := ih ok
    simp only [answersIn, List.filterMap_cons, Happening.answer?, List.length_cons] at rest ⊢
    omega
  | worked batch _ ih =>
    have rest := ih ok
    simp only [answersIn, List.filterMap_cons, Happening.answer?, List.length_cons] at rest ⊢
    omega

def Passed (batches : List Batch) (happened : List Happening) : Prop :=
  batchesIn happened = batches ∧ ∀ x ∈ happened, x.fault? = none

theorem passedIdle (happened : List Happening) :
    Passed [] (.asked true :: happened) ↔ Passed [] happened := by
  have ran : batchesIn (.asked true :: happened) = batchesIn happened := rfl
  rw [Passed, Passed, ran, List.forall_mem_cons]
  simp only [Happening.fault?, true_and]

theorem passedWorked (batch : Batch) (batches : List Batch) (happened : List Happening) :
    Passed (batch :: batches) (.asked true :: .ran batch (.ok ()) :: happened) ↔
      Passed batches happened := by
  have ran : batchesIn (.asked true :: .ran batch (.ok ()) :: happened) =
      batch :: batchesIn happened := rfl
  rw [Passed, Passed, ran, List.cons.injEq, List.forall_mem_cons, List.forall_mem_cons]
  simp only [Happening.fault?, BatchQueue.fault?, true_and]

theorem Course.passed (course : Course batches working happened outcome) :
    outcome = .ok () ↔ Passed batches happened := by
  induction course with
  | finished => simp [Passed, batchesIn]
  | stopped => simp [Passed, Happening.fault?]
  | failed => simp [Passed, Happening.fault?, fault?]
  | idled _ ih => rw [ih, passedIdle]
  | worked batch _ ih => rw [ih, passedWorked]

theorem splitLater {x wrong : Happening} {later before after : List Happening} {e : EngineError}
    (fine : x.fault? = none) (fault : wrong.fault? = some e)
    (same : x :: later = before ++ wrong :: after) : ∃ shorter, later = shorter ++ wrong :: after := by
  rcases List.cons_eq_append_iff.mp same with ⟨rfl, here⟩ | ⟨shorter, rfl, rest⟩
  · obtain rfl := (List.cons.inj here).1
    exact absurd (fine.symm.trans fault) nofun
  · exact ⟨shorter, rest⟩

theorem splitLast {x wrong : Happening} {before after : List Happening}
    (same : [x] = before ++ wrong :: after) : wrong = x ∧ after = [] := by
  rcases List.cons_eq_append_iff.mp same with ⟨-, here⟩ | ⟨shorter, -, rest⟩
  · exact List.cons.inj here
  · simp at rest

theorem Course.ends (course : Course batches working happened outcome)
    {before after : List Happening} {wrong : Happening} {e : EngineError}
    (same : happened = before ++ wrong :: after) (fault : wrong.fault? = some e) :
    after = [] ∧ outcome = .error e := by
  induction course generalizing before with
  | finished => simp at same
  | stopped =>
    obtain ⟨rfl, rfl⟩ := splitLast same
    exact ⟨rfl, congrArg _ (Option.some.inj fault)⟩
  | failed =>
    obtain ⟨shorter, rest⟩ := splitLater rfl fault same
    obtain ⟨rfl, rfl⟩ := splitLast rest
    exact ⟨rfl, congrArg _ (Option.some.inj fault)⟩
  | idled _ ih =>
    obtain ⟨shorter, rest⟩ := splitLater rfl fault same
    exact ih rest
  | worked batch _ ih =>
    obtain ⟨shorter, rest⟩ := splitLater rfl fault same
    obtain ⟨shorter, rest⟩ := splitLater rfl fault rest
    exact ih rest

def Blames (happened : List Happening) (e : EngineError) : Prop :=
  ∃ last, happened.getLast? = some last ∧ last.fault? = some e

theorem Blames.cons {e : EngineError} (blames : Blames happened e) (x : Happening) :
    Blames (x :: happened) e := by
  obtain ⟨last, place, fault⟩ := blames
  exact ⟨last, by rw [List.getLast?_cons, place, Option.getD_some], fault⟩

theorem Course.blames (course : Course batches working happened outcome) {e : EngineError}
    (wrong : outcome = .error e) : Blames happened e := by
  induction course with
  | finished => cases wrong
  | stopped =>
    cases wrong
    exact ⟨_, rfl, rfl⟩
  | failed =>
    cases wrong
    exact ⟨_, rfl, rfl⟩
  | idled _ ih => exact (ih wrong).cons _
  | worked batch _ ih => exact ((ih wrong).cons _).cons _

end Courses

section Checks

theorem Turn.counted {crew next : Crew σ} {now : List Happening} (turn : Turn action t crew now next)
    (unasked : ∀ batch state j, (action batch state t j).2.checks = j.checks) :
    next.journal.checks = crew.journal.checks + (answersIn now).length := by
  cases turn with
  | leaves => rfl
  | stopped => rfl
  | idles => rfl
  | @works j later q batch state after _ _ worked =>
    have kept := unasked batch state j.checked
    rw [worked] at kept
    exact kept
  | @fails j later q batch state after e _ _ failed =>
    have kept := unasked batch state j.checked
    rw [failed] at kept
    exact kept

theorem Turns.counted {crew final : Crew σ} {happened : List Happening}
    (turns : Turns action t crew happened final)
    (unasked : ∀ batch state j, (action batch state t j).2.checks = j.checks) :
    final.journal.checks = crew.journal.checks + (answersIn happened).length := by
  induction turns with
  | nil => rfl
  | @cons crew between last now later turn _ ih =>
    have all : answersIn (now ++ later) = answersIn now ++ answersIn later := List.filterMap_append
    rw [ih, turn.counted unasked, all, List.length_append, Nat.add_assoc]

end Checks

structure Consumed (batches : List Batch) (working : Nat) (happened : List Happening)
    (outcome : Except EngineError Unit) : Prop where
  inOrder : batchesIn happened <+: batches
  passed : outcome = .ok () ↔ Passed batches happened
  checks : outcome = .ok () → (answersIn happened).length = batches.length + working
  ends : ∀ before wrong after e, happened = before ++ wrong :: after → wrong.fault? = some e →
    after = [] ∧ outcome = .error e
  blames : ∀ e, outcome = .error e → Blames happened e

theorem Course.consumed {batches : List Batch} {working : Nat} {happened : List Happening}
    {outcome : Except EngineError Unit} (course : Course batches working happened outcome) :
    Consumed batches working happened outcome :=
  ⟨course.inOrder, course.passed, course.checks, fun _ _ _ _ => course.ends, fun _ => course.blames⟩

/-- However the workers take turns, a queue is consumed in one way: its batches in order, each once, until
something goes wrong, and after that nothing happens. -/
theorem consumedInTurn {q : BatchQueue} (made : q.Made) (workers : Nat) (action : Action σ)
    (state : σ) (t : Termination) (j : Journal) :
    q.drain.length = q.count - q.claimed ∧
      (0 < workers → q.consumeAlone workers action state t j = q.consume workers action state t j) ∧
      (∃ happened final, Shift action t (q.crew workers state j) happened final) ∧
      ∀ happened final, Shift action t (q.crew workers state j) happened final →
        q.consume workers action state t j = ((final.outcome, final.state), final.journal) ∧
        Consumed q.drain (max workers 1) happened final.outcome ∧
        ((∀ batch state j, (action batch state t j).2.checks = j.checks) →
          final.journal.checks = j.checks + (answersIn happened).length) := by
  obtain ⟨batches, hands⟩ := made.hands
  obtain ⟨-, -, length, -⟩ := made.drains
  obtain ⟨happened, final, shift, consumed⟩ := consumeShift made workers action state t j
  refine ⟨length, fun some => ?_, ⟨happened, final, shift⟩, fun happened' final' shift' => ?_⟩
  · simp only [consumeAlone, WorkerPool.make, requirePositivePasses _ some]
    rfl
  · obtain ⟨rfl, rfl⟩ := shift.unique shift'
    have course := shift.turns.course shift.done hands rfl (.inl (by
      rw [crew]
      exact Nat.lt_of_lt_of_le Nat.one_pos (Nat.le_max_right workers 1)))
    rw [drainHanded hands]
    exact ⟨consumed, course.consumed, shift.turns.counted⟩

def countUntil (start : Nat) : Action Nat := fun batch counted _ j =>
  (if batch.start = start then (.error .capacityOverflow, counted) else (.ok (), counted + batch.size),
    j)

theorem sampleConsumed :
    (ofSize 5 2).Made ∧ (ofSize 5 2).drain = [⟨0, 2⟩, ⟨2, 2⟩, ⟨4, 1⟩] ∧
      (ofSize 5 2).consumeAlone 3 (countUntil 4) 0 .always .empty =
        ((.error .capacityOverflow, 4), ⟨3, #[]⟩) ∧
      ∃ happened final, Shift (countUntil 4) .always ((ofSize 5 2).crew 3 0 .empty) happened final ∧
        Consumed [⟨0, 2⟩, ⟨2, 2⟩, ⟨4, 1⟩] 3 happened (.error .capacityOverflow) ∧
        (answersIn happened).length = 3 := by
  have made : (ofSize 5 2).Made := .ofSize 5 2
  have drained : (ofSize 5 2).drain = [⟨0, 2⟩, ⟨2, 2⟩, ⟨4, 1⟩] := by decide
  have counted : (ofSize 5 2).consume 3 (countUntil 4) 0 .always .empty =
      ((.error .capacityOverflow, 4), ⟨3, #[]⟩) := by
    cbv
  obtain ⟨-, alone, ⟨happened, final, shift⟩, all⟩ :=
    consumedInTurn made 3 (countUntil 4) 0 .always .empty
  obtain ⟨same, told, checks⟩ := all happened final shift
  have last := same.symm.trans counted
  have outcome : final.outcome = .error .capacityOverflow := congrArg (·.1.1) last
  have journal : final.journal = ⟨3, #[]⟩ := congrArg (·.2) last
  refine ⟨made, drained, (alone (by decide)).trans counted, happened, final, shift, ?_, ?_⟩
  · rwa [drained, outcome] at told
  · have three := checks fun _ _ _ => rfl
    rw [journal] at three
    exact (three.trans (Nat.zero_add _)).symm

end CommunityGraph.BatchQueue
