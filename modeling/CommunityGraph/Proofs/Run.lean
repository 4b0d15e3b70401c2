import CommunityGraph.Proofs.Batch.Queue

/-! What runs end in: one run, told by what it answers or why it fails; or two runs beside each other,
which leave the same journal and answer things that are related. Where two runs stop or report at
different points, only what both of them answer is related. -/
namespace CommunityGraph
variable {α β γ δ : Type}

def Comes (t : Termination) (Failure : EngineError → Prop) (Goal : α → Prop) :
    Except EngineError α → Prop
  | .ok a => Goal a
  | .error e => e = .terminated ∧ t.Stops ∨ Failure e

namespace Run

theorem bindApply (m : Run α) (f : α → Run β) (t : Termination) (j : Journal) :
    (m >>= f) t j = match m t j with
      | (.error e, j) => (.error e, j)
      | (.ok a, j) => f a t j := rfl

theorem bindRan {m : Run α} {t : Termination} {j j' : Journal} {a : α} (ran : m t j = (.ok a, j'))
    (f : α → Run β) : (m >>= f) t j = f a t j' := by rw [bindApply, ran]

theorem bindFailed {m : Run α} {t : Termination} {j : Journal} {e : EngineError}
    (failed : (m t j).1 = .error e) (f : α → Run β) : ((m >>= f) t j).1 = .error e := by
  rw [bindApply]
  generalize m t j = answer at failed
  obtain ⟨outcome, later⟩ := answer
  obtain rfl : outcome = .error e := failed
  rfl

theorem phaseRan {m : Run α} {name : String} {volume : Nat} {t : Termination} {j j' : Journal} {a : α}
    (ran : m t (j.note (.begin name volume)) = (.ok a, j')) :
    phase name volume m t j = (.ok a, j'.note (.finish name)) := by rw [phase, ran]

theorem phaseFailed {m : Run α} {name : String} {volume : Nat} {t : Termination} {j : Journal}
    {e : EngineError} (failed : (m t (j.note (.begin name volume))).1 = .error e) :
    (phase name volume m t j).1 = .error e := by
  unfold phase
  generalize m t (j.note (.begin name volume)) = answer at failed
  obtain ⟨outcome, later⟩ := answer
  obtain rfl : outcome = .error e := failed
  rfl

theorem bindLog (level : LogLevel) (text : String) (fields : List (String × String))
    (f : Unit → Run β) (t : Termination) (j : Journal) :
    (log level text fields >>= f) t j = f () t (j.note (.log ⟨level, text, fields⟩)) := rfl

theorem bindAssoc (m : Run α) (f : α → Run β) (g : β → Run γ) :
    m >>= f >>= g = m >>= fun a => f a >>= g := by
  funext t j
  simp only [bindApply]
  generalize m t j = answer
  obtain ⟨outcome, later⟩ := answer
  cases outcome <;> rfl

def Ends (t : Termination) (Failure : EngineError → Prop) (Goal : α → Prop) (m : Run α) : Prop :=
  ∀ j, Comes t Failure Goal (m t j).1

section Ends
variable {t : Termination} {Failure : EngineError → Prop} {Goal : α → Prop} {After : β → Prop}

theorem Ends.bind {m : Run α} {f : α → Run β} (first : Ends t Failure Goal m)
    (rest : ∀ a, Goal a → Ends t Failure After (f a)) : Ends t Failure After (m >>= f) := by
  intro j
  have ended := first j
  rw [bindApply]
  generalize m t j = answer at ended
  obtain ⟨outcome, later⟩ := answer
  cases outcome with
  | error e => exact ended
  | ok a => exact rest a ended later

theorem Ends.pure {a : α} (good : Goal a) : Ends t Failure Goal (pure a : Run α) := fun _ => good

theorem endsNote (e : Entry) : Ends t Failure (fun _ => True) (note e) := fun _ => trivial

theorem endsLog (level : LogLevel) (text : String) (fields : List (String × String)) :
    Ends t Failure (fun _ => True) (log level text fields) := endsNote _

theorem endsExcept {x : Except EngineError α} (comes : Comes t Failure Goal x) :
    Ends t Failure Goal (ofExcept x) := by
  intro j
  cases x with
  | error e => exact comes
  | ok a => exact comes

theorem endsAnswer (x : Except EngineError α) :
    Ends t (fun e => x = .error e) (fun a => x = .ok a) (ofExcept x) := by
  refine endsExcept ?_
  cases x with
  | error e => exact .inr rfl
  | ok a => exact rfl

theorem Ends.imp {m : Run α} {Goal' : α → Prop} (ends : Ends t Failure Goal m)
    (goals : ∀ a, Goal a → Goal' a) : Ends t Failure Goal' m := by
  intro j
  have ended := ends j
  generalize (m t j).1 = outcome at ended ⊢
  cases outcome with
  | error e => exact ended
  | ok a => exact goals a ended

theorem Ends.failing {m : Run α} {Failure' : EngineError → Prop} (ends : Ends t Failure Goal m)
    (failures : ∀ e, Failure e → Failure' e) : Ends t Failure' Goal m := by
  intro j
  have ended := ends j
  generalize (m t j).1 = outcome at ended ⊢
  cases outcome with
  | error e => exact ended.imp_right (failures e)
  | ok a => exact ended

theorem Ends.phase {m : Run α} (ends : Ends t Failure Goal m) (name : String) (volume : Nat) :
    Ends t Failure Goal (phase name volume m) := by
  intro j
  have ended := ends (j.note (.begin name volume))
  unfold Run.phase
  generalize m t (j.note (.begin name volume)) = answer at ended
  obtain ⟨outcome, later⟩ := answer
  cases outcome <;> exact ended

theorem Ends.ok {m : Run α} (ends : Ends t Failure Goal m) {j j' : Journal} {a : α}
    (ran : m t j = (.ok a, j')) : Goal a := by
  have ended := ends j
  rwa [ran] at ended

end Ends

def Follows (Related : α → β → Prop) (m : Run α) (m' : Run β) : Prop :=
  ∀ t j, match m t j, m' t j with
    | (.ok a, k), (.ok b, k') => Related a b ∧ k = k'
    | (.error e, k), (.error e', k') => e = e' ∧ k = k'
    | _, _ => False

section Follows
variable {Related : α → β → Prop} {Later : γ → δ → Prop}

theorem followsSame (m : Run α) : Follows (fun a b => a = b) m m := by
  intro t j
  generalize m t j = answer
  obtain ⟨outcome, later⟩ := answer
  cases outcome <;> exact ⟨rfl, rfl⟩

theorem followsEnds {m : Run α} {Failure : EngineError → Prop} {Goal : α → Prop}
    (ends : ∀ t, Ends t Failure Goal m) : Follows (fun a b => a = b ∧ Goal a) m m := by
  intro t j
  have ended := ends t j
  generalize m t j = answer at ended
  obtain ⟨outcome, later⟩ := answer
  cases outcome with
  | error e => exact ⟨rfl, rfl⟩
  | ok a => exact ⟨⟨rfl, ended⟩, rfl⟩

theorem Follows.bind {m : Run α} {m' : Run β} {f : α → Run γ} {f' : β → Run δ}
    (first : Follows Related m m') (rest : ∀ a b, Related a b → Follows Later (f a) (f' b)) :
    Follows Later (m >>= f) (m' >>= f') := by
  intro t j
  have step := first t j
  rw [bindApply, bindApply]
  generalize m t j = answer at step
  generalize m' t j = other at step
  obtain ⟨outcome, later⟩ := answer
  obtain ⟨outcome', later'⟩ := other
  cases outcome <;> cases outcome'
  · exact step
  · exact step.elim
  · exact step.elim
  · obtain ⟨related, rfl⟩ := step
    exact rest _ _ related t later

theorem Follows.after {m : Run α} {f : α → Run γ} {f' : α → Run δ}
    (rest : ∀ a, Follows Later (f a) (f' a)) : Follows Later (m >>= f) (m >>= f') :=
  (followsSame m).bind fun a _ same => same ▸ rest a

theorem Follows.pure {a : α} {b : β} (related : Related a b) :
    Follows Related (pure a : Run α) (pure b : Run β) := fun _ _ => ⟨related, rfl⟩

theorem Follows.imp {m : Run α} {m' : Run β} {Weaker : α → β → Prop}
    (follows : Follows Related m m') (weaker : ∀ a b, Related a b → Weaker a b) :
    Follows Weaker m m' := by
  intro t j
  have step := follows t j
  generalize m t j = answer at step
  generalize m' t j = other at step
  obtain ⟨outcome, later⟩ := answer
  obtain ⟨outcome', later'⟩ := other
  cases outcome <;> cases outcome'
  · exact step
  · exact step
  · exact step
  · exact ⟨weaker _ _ step.1, step.2⟩

theorem Follows.ok {m : Run α} {m' : Run β} (follows : Follows Related m m') {t : Termination}
    {j j' : Journal} {a : α} (ran : m t j = (.ok a, j')) :
    ∃ b, m' t j = (.ok b, j') ∧ Related a b := by
  have step := follows t j
  rw [ran] at step
  generalize m' t j = other at step
  obtain ⟨outcome, later⟩ := other
  cases outcome with
  | error e => exact step.elim
  | ok b =>
    obtain ⟨related, rfl⟩ := step
    exact ⟨b, rfl, related⟩

end Follows

def Answers (m : Run α) (a : α) : Prop := ∃ t j, (m t j).1 = .ok a

def Agree (Related : α → β → Prop) (m : Run α) (m' : Run β) : Prop :=
  ∀ a b, Answers m a → Answers m' b → Related a b

section Agree
variable {Related : α → β → Prop} {Later : γ → δ → Prop} {m : Run α} {m' : Run β}

theorem answersBind {f : α → Run β} {b : β} (answers : Answers (m >>= f) b) :
    ∃ a, Answers m a ∧ Answers (f a) b := by
  obtain ⟨t, j, ran⟩ := answers
  rw [bindApply] at ran
  cases first : m t j with
  | mk outcome later =>
    rw [first] at ran
    cases outcome with
    | error e => cases ran
    | ok a => exact ⟨a, ⟨t, j, congrArg Prod.fst first⟩, t, later, ran⟩

theorem answersPhase {name : String} {volume : Nat} {a : α}
    (answers : Answers (phase name volume m) a) : Answers m a := by
  obtain ⟨t, j, ran⟩ := answers
  refine ⟨t, j.note (.begin name volume), ?_⟩
  unfold phase at ran
  generalize m t (j.note (.begin name volume)) = answer at ran
  obtain ⟨outcome, later⟩ := answer
  cases outcome <;> exact ran

theorem Ends.answers {Failure : EngineError → Prop} {Goal : α → Prop}
    (ends : ∀ t, Ends t Failure Goal m) {a : α} (answers : Answers m a) : Goal a := by
  obtain ⟨t, j, ran⟩ := answers
  exact (ends t).ok (Prod.ext ran rfl)

theorem agreeEnds {Failure Failure' : EngineError → Prop} {Goal : α → Prop} {Goal' : β → Prop}
    (ends : ∀ t, Ends t Failure Goal m) (ends' : ∀ t, Ends t Failure' Goal' m')
    (related : ∀ a b, Goal a → Goal' b → Related a b) : Agree Related m m' :=
  fun a b answers answers' => related a b (Ends.answers ends answers) (Ends.answers ends' answers')

theorem Agree.bind {f : α → Run γ} {f' : β → Run δ} (first : Agree Related m m')
    (rest : ∀ a b, Related a b → Agree Later (f a) (f' b)) :
    Agree Later (m >>= f) (m' >>= f') := by
  intro c d answers answers'
  obtain ⟨a, here, later⟩ := answersBind answers
  obtain ⟨b, here', later'⟩ := answersBind answers'
  exact rest a b (first a b here here') c d later later'

theorem Agree.after {m m' : Run Unit} {f : Unit → Run γ} {f' : Unit → Run δ}
    (rest : Agree Later (f ()) (f' ())) : Agree Later (m >>= f) (m' >>= f') := by
  have both : Agree (fun _ _ => True) m m' := fun _ _ _ _ => trivial
  exact both.bind fun _ _ _ => rest

theorem Agree.pure {a : α} {b : β} (related : Related a b) :
    Agree Related (pure a : Run α) (pure b : Run β) := by
  rintro _ _ ⟨t, j, ran⟩ ⟨t', j', ran'⟩
  cases ran
  cases ran'
  exact related

theorem Agree.phase (agree : Agree Related m m') (name : String) (volume volume' : Nat) :
    Agree Related (Run.phase name volume m) (Run.phase name volume' m') :=
  fun a b answers answers' => agree a b (answersPhase answers) (answersPhase answers')

theorem Agree.ends {Failure : EngineError → Prop} {Goal : α → Prop} (agree : Agree Related m m')
    (ends : ∀ t, Ends t Failure Goal m) : Agree (fun a b => Related a b ∧ Goal a) m m' :=
  fun a b answers answers' => ⟨agree a b answers answers', Ends.answers ends answers⟩

end Agree

def Paired (Related : α → β → Prop) : Except EngineError α → Except EngineError β → Prop
  | .ok a, .ok b => Related a b
  | .error e, .error e' => e = e'
  | _, _ => False

theorem Paired.imp {Related Weaker : α → β → Prop} {x : Except EngineError α}
    {y : Except EngineError β} (paired : Paired Related x y)
    (weaker : ∀ a b, Related a b → Weaker a b) : Paired Weaker x y := by
  cases x <;> cases y
  · exact paired
  · exact paired
  · exact paired
  · exact weaker _ _ paired

theorem Paired.refl (x : Except EngineError α) : Paired (fun a b => a = b) x x := by
  cases x <;> rfl

theorem Paired.eq {x y : Except EngineError α} (paired : Paired (fun a b => a = b) x y) : x = y := by
  cases x <;> cases y
  · exact congrArg Except.error paired
  · exact paired.elim
  · exact paired.elim
  · exact congrArg Except.ok paired

def Matches (Related : α → β → Prop) (m : Run α) (m' : Run β) : Prop :=
  ∀ j k, Paired Related (m .always j).1 (m' .always k).1

def Gives (m : Run α) (a : α) : Prop := ∀ j, (m .always j).1 = .ok a

section Matches
variable {Related : α → β → Prop} {Later : γ → δ → Prop} {m : Run α} {m' : Run β}

theorem Matches.bind {f : α → Run γ} {f' : β → Run δ} (first : Matches Related m m')
    (rest : ∀ a b, Related a b → Matches Later (f a) (f' b)) :
    Matches Later (m >>= f) (m' >>= f') := by
  intro j k
  have paired := first j k
  rw [bindApply, bindApply]
  generalize m .always j = answer at paired
  generalize m' .always k = other at paired
  obtain ⟨outcome, later⟩ := answer
  obtain ⟨outcome', later'⟩ := other
  cases outcome <;> cases outcome'
  · exact paired
  · exact paired.elim
  · exact paired.elim
  · exact rest _ _ paired later later'

theorem Gives.onwards {a : α} {f : α → Run γ} {n : Run δ} (gives : Gives m a)
    (rest : Matches Later (f a) n) : Matches Later (m >>= f) n := by
  intro j k
  have given := gives j
  rw [bindApply]
  generalize m .always j = answer at given
  obtain ⟨outcome, later⟩ := answer
  obtain rfl : outcome = .ok a := given
  exact rest later k

theorem Gives.phase {a : α} (gives : Gives m a) (name : String) (volume : Nat) :
    Gives (Run.phase name volume m) a := by
  intro j
  have given := gives (j.note (.begin name volume))
  unfold Run.phase
  generalize m .always (j.note (.begin name volume)) = answer at given
  obtain ⟨outcome, later⟩ := answer
  obtain rfl : outcome = .ok a := given
  rfl

theorem Matches.phase (pair : Matches Related m m') (name : String) (volume : Nat) :
    Matches Related (Run.phase name volume m) m' := by
  intro j k
  have paired := pair (j.note (.begin name volume)) k
  unfold Run.phase
  generalize m .always (j.note (.begin name volume)) = answer at paired
  obtain ⟨outcome, later⟩ := answer
  cases outcome <;> exact paired

theorem Matches.quietly {f : α → Run α} (pair : Matches Related m m') (quiet : ∀ a, Gives (f a) a) :
    Matches Related (m >>= f) m' := by
  intro j k
  have paired := pair j k
  rw [bindApply]
  generalize m .always j = answer at paired
  obtain ⟨outcome, later⟩ := answer
  cases outcome with
  | error e => exact paired
  | ok a =>
    dsimp only at paired ⊢
    rwa [quiet a later]

theorem Matches.pure {a : α} {b : β} (related : Related a b) :
    Matches Related (pure a : Run α) (pure b : Run β) := fun _ _ => related

theorem matchesExcept {x : Except EngineError α} {y : Except EngineError β}
    (paired : Paired Related x y) : Matches Related (ofExcept x) (ofExcept y) := by
  intro j k
  cases x <;> cases y <;> exact paired

theorem Ends.unstopped {Goal : α → Prop} (ends : Ends .always (fun _ => False) Goal m) (j : Journal) :
    ∃ a, (m .always j).1 = .ok a ∧ Goal a := by
  have ended := ends j
  cases outcome : (m .always j).1 with
  | ok a =>
    rw [outcome] at ended
    exact ⟨a, rfl, ended⟩
  | error e =>
    rw [outcome] at ended
    obtain ⟨-, asked, k, stopped⟩ := ended.resolve_right id
    cases stopped

theorem matchesEnds {Goal : α → Prop} {Goal' : β → Prop}
    (ends : Ends .always (fun _ => False) Goal m) (ends' : Ends .always (fun _ => False) Goal' m') :
    Matches (fun a b => Goal a ∧ Goal' b) m m' := by
  intro j k
  obtain ⟨a, ran, good⟩ := ends.unstopped j
  obtain ⟨b, ran', good'⟩ := ends'.unstopped k
  rw [ran, ran']
  exact ⟨good, good'⟩

theorem Matches.imp {Weaker : α → β → Prop} (pair : Matches Related m m')
    (weaker : ∀ a b, Related a b → Weaker a b) : Matches Weaker m m' :=
  fun j k => (pair j k).imp weaker

theorem Matches.trans {n : Run α} (first : Matches (fun a b => a = b) n m)
    (second : Matches Related m m') : Matches Related n m' := by
  intro j k
  rw [(first j .empty).eq]
  exact second .empty k

theorem Matches.symm {n : Run α} (pair : Matches (fun a b => a = b) n m) :
    Matches (fun a b => a = b) m n := by
  intro j k
  rw [← (pair k j).eq]
  exact Paired.refl _

end Matches
end Run
end CommunityGraph
