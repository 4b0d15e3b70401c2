import CommunityGraph.Proofs.Run

/-! What runs are made of: answers, entries that are written down, and readings of the termination flag, one
after the other. What holds of each of these, and is kept where one follows another, holds of all runs. -/
namespace CommunityGraph
variable {α β γ σ : Type}

namespace Watched

/-- Some answers of a run say that the flag has stopped it. Whatever follows those reads the flag no more,
and is stopped as well. -/
inductive Steps (Kind : Entry → Prop) : {β : Type} → (β → Prop) → Watched β → Prop where
  | pure {β : Type} {Stopped : β → Prop} (b : β) : Steps Kind Stopped (Watched.pure b)
  | note {Stopped : Unit → Prop} {e : Entry} (kind : Kind e) : Steps Kind Stopped (Watched.note e)
  | check : Steps Kind (fun goesOn => goesOn = false) Watched.check
  | bind {β γ : Type} {Stopped : β → Prop} {StoppedLater : γ → Prop} {m : Watched β}
      {f : β → Watched γ} (first : Steps Kind Stopped m)
      (rest : ∀ b, Steps Kind StoppedLater (f b))
      (stopped : ∀ b, Stopped b → ∀ t j,
        StoppedLater (f b t j).1 ∧ (f b t j).2.checks = j.checks) :
      Steps Kind StoppedLater (Watched.bind m f)

theorem bindApply (m : Watched β) (f : β → Watched γ) (t : Termination) (j : Journal) :
    Watched.bind m f t j = f (m t j).1 t (m t j).2 := rfl

def guarded (stopped : β) (m : Watched β) : Watched β := fun t j =>
  match check t j with
  | (false, j) => (stopped, j)
  | (true, j) => m t j

section Steps
variable {Kind : Entry → Prop} {Stopped : β → Prop} {StoppedLater : γ → Prop} {m : Watched β}
  {f : β → Watched γ}

theorem Steps.imp {Other : Entry → Prop} (steps : Steps Kind Stopped m)
    (kinds : ∀ e, Kind e → Other e) : Steps Other Stopped m := by
  induction steps with
  | pure b => exact .pure b
  | note kind => exact .note (kinds _ kind)
  | check => exact .check
  | bind first rest stopped ih later => exact .bind ih later stopped

theorem Steps.before (first : Steps Kind (fun _ => False) m)
    (rest : ∀ b, Steps Kind StoppedLater (f b)) : Steps Kind StoppedLater (Watched.bind m f) :=
  first.bind rest fun _ stopped => stopped.elim

theorem Steps.noting {e : Entry} (kind : Kind e) (b : β) :
    Steps Kind Stopped fun _ j => (b, j.note e) :=
  (Steps.note kind).before fun _ => .pure b

theorem Steps.guarded {stopped : β} (body : Steps Kind Stopped m) (counts : Stopped stopped) :
    Steps Kind Stopped (guarded stopped m) := by
  have same : Watched.guarded stopped m = Watched.bind Watched.check fun goesOn =>
      if goesOn then m else Watched.pure stopped := by
    funext t j
    rw [Watched.guarded, bindApply]
    generalize Watched.check t j = answer
    obtain ⟨goesOn, later⟩ := answer
    cases goesOn <;> rfl
  rw [same]
  refine Steps.check.bind (fun goesOn => ?_) fun goesOn stops t j => ?_
  · cases goesOn with
    | false => exact .pure stopped
    | true => exact body
  · obtain rfl := stops
    exact ⟨counts, rfl⟩

end Steps
end Watched

namespace Run

def Terminated (outcome : Except EngineError α) : Prop := outcome = .error .terminated

def Steps (Kind : Entry → Prop) (m : Run α) : Prop := Watched.Steps Kind Terminated m

section Steps
variable {Kind : Entry → Prop} {m : Run α} {f : α → Run β}

def resumed (f : α → Run β) : Except EngineError α → Run β
  | .error e => fail e
  | .ok a => f a

theorem bindResumed (m : Run α) (f : α → Run β) : (m >>= f) = Watched.bind m (resumed f) := by
  funext t j
  have applied : Watched.bind m (resumed f) t j = resumed f (m t j).1 t (m t j).2 := rfl
  rw [bindApply, applied]
  generalize m t j = answer
  obtain ⟨outcome, later⟩ := answer
  cases outcome <;> rfl

theorem Steps.bind (first : Steps Kind m) (rest : ∀ a, Steps Kind (f a)) :
    Steps Kind (m >>= f) := by
  rw [bindResumed]
  refine Watched.Steps.bind first (fun outcome => ?_) fun outcome stopped t j => ?_
  · cases outcome with
    | error e => exact .pure _
    | ok a => exact rest a
  · obtain rfl := stopped
    exact ⟨rfl, rfl⟩

theorem Steps.imp {Other : Entry → Prop} (steps : Steps Kind m) (kinds : ∀ e, Kind e → Other e) :
    Steps Other m := Watched.Steps.imp steps kinds

theorem stepsPure (a : α) : Steps Kind (pure a : Run α) := .pure _

theorem stepsFail (e : EngineError) : Steps Kind (fail e : Run α) := .pure _

theorem stepsExcept (x : Except EngineError α) : Steps Kind (ofExcept x) := by
  cases x with
  | error e => exact stepsFail e
  | ok a => exact stepsPure a

theorem stepsNote {e : Entry} (kind : Kind e) : Steps Kind (note e) := .noting kind _

theorem stepsRunning : Steps Kind assertRunning := by
  have same : assertRunning = Watched.bind Watched.check (fun goesOn =>
      Watched.pure (if goesOn then .ok () else .error .terminated)) := rfl
  rw [same]
  refine Watched.Steps.check.bind (fun _ => .pure _) fun goesOn stopped t j => ?_
  obtain rfl := stopped
  exact ⟨rfl, rfl⟩

def lastEntry (name : String) : Except EngineError α → Entry
  | .error _ => .failure name
  | .ok _ => .finish name

def closing (name : String) (outcome : Except EngineError α) : Run α :=
  fun _ j => (outcome, j.note (lastEntry name outcome))

theorem phaseSteps (name : String) (volume : Nat) (m : Run α) : phase name volume m =
    Watched.bind (Watched.note (.begin name volume)) fun _ => Watched.bind m (closing name) := by
  funext t j
  simp only [phase, Watched.bind, Watched.note]
  generalize m t (j.note (.begin name volume)) = answer
  obtain ⟨outcome, later⟩ := answer
  cases outcome <;> rfl

theorem Steps.phase {name : String} {volume : Nat} (begins : Kind (.begin name volume))
    (fails : Kind (.failure name)) (finishes : Kind (.finish name)) (body : Steps Kind m) :
    Steps Kind (phase name volume m) := by
  have closes : ∀ outcome : Except EngineError α, Steps Kind (closing name outcome) := by
    intro outcome
    refine .noting ?_ outcome
    cases outcome with
    | error e => exact fails
    | ok a => exact finishes
  rw [phaseSteps]
  refine (Watched.Steps.note begins).before fun _ => ?_
  exact Watched.Steps.bind body closes fun outcome stopped t j => ⟨stopped, rfl⟩

end Steps
end Run

namespace BatchQueue

def Halted (answer : Except EngineError Unit × σ) : Prop := answer.1 = .error .terminated

variable {Kind : Entry → Prop} {action : Action σ}

def onwards (m : Watched (Except EngineError Unit × σ)) (failed : EngineError → σ → β)
    (rest : σ → Watched β) : Watched β := fun t j =>
  match m t j with
  | ((.error e, state), j) => (failed e state, j)
  | ((.ok (), state), j) => rest state t j

theorem onwardsSteps {m : Watched (Except EngineError Unit × σ)} {Stopped : β → Prop}
    {failed : EngineError → σ → β} {rest : σ → Watched β} (first : Watched.Steps Kind Halted m)
    (later : ∀ state, Watched.Steps Kind Stopped (rest state))
    (stopped : ∀ state, Stopped (failed .terminated state)) :
    Watched.Steps Kind Stopped (onwards m failed rest) := by
  have same : onwards m failed rest = Watched.bind m fun answer =>
      match answer with
      | (.error e, state) => Watched.pure (failed e state)
      | (.ok (), state) => rest state := by
    funext t j
    rw [onwards, Watched.bindApply]
    generalize m t j = answer
    obtain ⟨⟨outcome, after⟩, later⟩ := answer
    cases outcome <;> rfl
  rw [same]
  refine first.bind (fun answer => ?_) fun answer halted t j => ?_
  · obtain ⟨outcome, after⟩ := answer
    cases outcome with
    | error e => exact .pure _
    | ok => exact later after
  · obtain ⟨outcome, after⟩ := answer
    obtain rfl : outcome = .error .terminated := halted
    exact ⟨stopped after, rfl⟩

def taking (source : BatchSource) (action : Action σ) (left index : Nat) (state : σ) :
    Watched (Except EngineError Unit × σ) :=
  match source.batch? index with
  | none => Watched.pure (.ok (), state)
  | some batch => onwards (action batch state) (fun e state => (.error e, state))
      (work source action left (index + 1))

theorem workTurn (source : BatchSource) (action : Action σ) (left index : Nat) (state : σ) :
    work source action (left + 1) index state =
      Watched.guarded (.error .terminated, state) (taking source action left index state) := by
  funext t j
  rw [work, taking]
  cases source.batch? index <;> rfl

theorem workSteps (source : BatchSource)
    (acts : ∀ batch state, Watched.Steps Kind Halted (action batch state)) (left index : Nat)
    (state : σ) : Watched.Steps Kind Halted (work source action left index state) := by
  have stopped : ∀ state : σ, Halted ((Except.error .terminated : Except EngineError Unit), state) :=
    fun _ => rfl
  induction left generalizing index state with
  | zero =>
    have ends : Watched.Steps Kind Halted
        (Watched.pure ((Except.ok () : Except EngineError Unit), state)) := .pure _
    unfold work
    exact ends.guarded (stopped state)
  | succ left ih =>
    rw [workTurn]
    refine Watched.Steps.guarded ?_ (stopped state)
    unfold taking
    cases source.batch? index with
    | none => exact .pure _
    | some batch => exact onwardsSteps (acts batch state) (ih (index + 1)) stopped

theorem idleSteps (workers : Nat) : Run.Steps Kind (idle workers) := by
  induction workers with
  | zero => exact .pure _
  | succ workers ih => exact ih.guarded rfl

theorem consumeOnwards (q : BatchQueue) (concurrency : Nat) (action : Action σ) (state : σ) :
    q.consume concurrency action state = onwards
      (work q.source action (q.count - q.claimed) q.claimed state)
      (fun e state => (.error e, state)) (fun state => Watched.bind (idle (max concurrency 1 - 1))
        fun outcome => Watched.pure (outcome, state)) := rfl

theorem consumeSteps (q : BatchQueue) (concurrency : Nat)
    (acts : ∀ batch state, Watched.Steps Kind Halted (action batch state)) (state : σ) :
    Watched.Steps Kind Halted (q.consume concurrency action state) := by
  rw [consumeOnwards]
  refine onwardsSteps (workSteps q.source acts _ _ state) (fun after => ?_) fun _ => rfl
  exact Watched.Steps.bind (idleSteps _) (fun outcome => .pure (outcome, after))
    fun outcome stopped t j => ⟨stopped, rfl⟩

theorem consumeAllOnwards (q : BatchQueue) (concurrency : Nat) (action : Action σ) (state : σ) :
    q.consumeAll concurrency action state =
      onwards (q.consume concurrency action state) (fun e _ => .error e) Run.pure := rfl

theorem consumeAllSteps (q : BatchQueue) (concurrency : Nat)
    (acts : ∀ batch state, Watched.Steps Kind Halted (action batch state)) (state : σ) :
    Run.Steps Kind (q.consumeAll concurrency action state) := by
  rw [consumeAllOnwards]
  exact onwardsSteps (consumeSteps q concurrency acts state) (fun after => .pure _) fun _ => rfl

end BatchQueue
end CommunityGraph
