import CommunityGraph.Proofs.Steps.Programs

/-! Stopping a run. What it does between two readings of the termination flag does not depend on the flag,
so a flag that lets it go on at every reading changes nothing, and any other flag stops it. -/
namespace CommunityGraph
variable {α β γ : Type}

def Termination.Passes (t : Termination) (readings : List Journal) : Prop :=
  ∀ reading ∈ readings, t.running reading.checks reading = true

theorem Termination.alwaysPasses (readings : List Journal) : Termination.always.Passes readings :=
  fun _ _ => rfl

theorem Termination.passesAppend {t : Termination} {first rest : List Journal} :
    t.Passes (first ++ rest) ↔ t.Passes first ∧ t.Passes rest := by
  simp only [Passes, List.mem_append, or_imp, forall_and]

theorem Termination.passesCases (t : Termination) (readings : List Journal) :
    t.Passes readings ∨ ∃ before reading after, readings = before ++ reading :: after ∧
      t.Passes before ∧ t.running reading.checks reading = false := by
  induction readings with
  | nil => exact .inl fun _ member => absurd member List.not_mem_nil
  | cons first readings ih =>
    cases running : t.running first.checks first with
    | false =>
      exact .inr ⟨[], first, readings, rfl, fun _ none => absurd none List.not_mem_nil, running⟩
    | true =>
      have here : t.Passes [first] := fun reading member => by
        obtain rfl := List.mem_singleton.mp member
        exact running
      rcases ih with passes | ⟨before, reading, after, rfl, passes, stops⟩
      · exact .inl (Termination.passesAppend.mpr ⟨here, passes⟩)
      · exact .inr ⟨first :: before, reading, after, rfl,
          Termination.passesAppend.mpr ⟨here, passes⟩, stops⟩

namespace Watched

/-- The readings that a step makes from a journal on, one after the other, while it may go on: those
are all there are. It comes to the whole answer, unless one of them stops it and is the last one. -/
structure Reads (Stopped : β → Prop) (m : Watched β) (whole : β) (j : Journal)
    (readings : List Journal) : Prop where
  counted : readings.map Journal.checks = List.range' j.checks readings.length
  ended : (m .always j).2.checks = j.checks + readings.length
  passes : ∀ t : Termination, t.Passes readings → m t j = (whole, (m .always j).2)
  stops : ∀ (t : Termination) (before : List Journal) (reading : Journal) (after : List Journal),
    readings = before ++ reading :: after → t.Passes before →
    t.running reading.checks reading = false →
    Stopped (m t j).1 ∧ (m t j).2.checks = reading.checks + 1

def Heeds (Stopped : β → Prop) (m : Watched β) : Prop :=
  ∃ whole, ∀ j, ∃ readings, Reads Stopped m whole j readings

def Quiet (m : Watched β) : Prop :=
  ∃ whole, ∀ t j, m t j = (whole, (m .always j).2) ∧ (m .always j).2.checks = j.checks

section Heeds
variable {Stopped : β → Prop} {StoppedLater : γ → Prop} {m : Watched β} {f : β → Watched γ}

theorem Quiet.heeds (quiet : Quiet m) : Heeds Stopped m := by
  obtain ⟨whole, same⟩ := quiet
  refine ⟨whole, fun j => ⟨[], rfl, (same .always j).2, fun t _ => (same t j).1, ?_⟩⟩
  intro t before reading after split
  exact absurd split.symm (by simp)

theorem quietPure (b : β) : Quiet (Watched.pure b) := ⟨b, fun _ _ => ⟨rfl, rfl⟩⟩

theorem quietNote (e : Entry) : Quiet (Watched.note e) := ⟨(), fun _ _ => ⟨rfl, rfl⟩⟩

theorem heedsCheck : Heeds (fun goesOn => goesOn = false) Watched.check := by
  refine ⟨true, fun j => ⟨[j], rfl, rfl, fun t passes => ?_, ?_⟩⟩
  · have running := passes j (List.mem_singleton.mpr rfl)
    rw [Watched.check, running]
    rfl
  · intro t before reading after split _ stopped
    obtain ⟨rfl, rfl, -⟩ : before = [] ∧ reading = j ∧ after = [] := by
      cases before <;> simp_all
    exact ⟨stopped, rfl⟩

theorem Heeds.bind (first : Heeds Stopped m) (rest : ∀ b, Heeds StoppedLater (f b))
    (stopped : ∀ b, Stopped b → ∀ t j, StoppedLater (f b t j).1 ∧ (f b t j).2.checks = j.checks) :
    Heeds StoppedLater (Watched.bind m f) := by
  obtain ⟨b, firstReads⟩ := first
  obtain ⟨whole, restReads⟩ := rest b
  refine ⟨whole, fun j => ?_⟩
  obtain ⟨readings, reads⟩ := firstReads j
  obtain ⟨further, later⟩ := restReads (m .always j).2
  have started : ∀ t : Termination, t.Passes readings →
      Watched.bind m f t j = f b t (m .always j).2 := fun t passes => by
    rw [bindApply, reads.passes t passes]
  have always := started .always (Termination.alwaysPasses _)
  refine ⟨readings ++ further, ?_, ?_, fun t passes => ?_, ?_⟩
  · rw [List.map_append, reads.counted, later.counted, reads.ended, List.length_append,
      List.range'_append_1]
  · rw [always, later.ended, reads.ended, List.length_append, Nat.add_assoc]
  · obtain ⟨early, late⟩ := Termination.passesAppend.mp passes
    rw [started t early, always, later.passes t late]
  · intro t before reading after split passes stops
    rcases List.append_eq_append_iff.mp split with ⟨middle, rfl, rest⟩ | ⟨middle, ends, rest⟩
    · obtain ⟨early, late⟩ := Termination.passesAppend.mp passes
      rw [started t early]
      exact later.stops t middle reading after rest late stops
    · cases middle with
      | nil =>
        have early : t.Passes readings := by
          rw [ends, List.append_nil]
          exact passes
        rw [started t early]
        exact later.stops t [] reading after rest.symm (fun _ none => absurd none List.not_mem_nil)
          stops
      | cons here middle =>
        obtain ⟨rfl, -⟩ := List.cons.inj rest
        obtain ⟨halted, count⟩ := reads.stops t before reading middle ends passes stops
        obtain ⟨haltedLater, same⟩ := stopped _ halted t (m t j).2
        exact ⟨haltedLater, same.trans count⟩

theorem Steps.heeds {Kind : Entry → Prop} (steps : Steps Kind Stopped m) : Heeds Stopped m := by
  induction steps with
  | pure b => exact (quietPure b).heeds
  | note => exact (quietNote _).heeds
  | check => exact heedsCheck
  | bind first rest stopped ih later => exact ih.bind later stopped

end Heeds
end Watched

namespace Run

def Heeds (m : Run α) : Prop := Watched.Heeds Terminated m

section Heeds
variable {Kind : Entry → Prop} {m : Run α}

theorem Steps.heeds (steps : Steps Kind m) : Heeds m := Watched.Steps.heeds steps

theorem Heeds.same (heeds : Heeds m) (t : Termination) (j k : Journal) :
    (m t j).1 = .error .terminated ∨ (m t j).1 = (m .always k).1 := by
  obtain ⟨whole, reads⟩ := heeds
  obtain ⟨readings, here⟩ := reads j
  obtain ⟨others, there⟩ := reads k
  rcases t.passesCases readings with passes | ⟨before, reading, after, split, passes, stops⟩
  · right
    rw [here.passes t passes, there.passes .always (Termination.alwaysPasses _)]
  · exact .inl (here.stops t before reading after split passes stops).1

theorem Heeds.matches (heeds : Heeds m) : Matches (fun a b => a = b) m m := by
  obtain ⟨whole, reads⟩ := heeds
  intro j k
  obtain ⟨_, here⟩ := reads j
  obtain ⟨_, there⟩ := reads k
  rw [here.passes .always (Termination.alwaysPasses _),
    there.passes .always (Termination.alwaysPasses _)]
  exact Paired.refl whole

theorem Heeds.answered (heeds : Heeds m) {t : Termination} {j : Journal} {a : α}
    (ran : (m t j).1 = .ok a) : ∃ readings : List Journal,
      readings.map Journal.checks = List.range' j.checks ((m t j).2.checks - j.checks) ∧
        t.Passes readings := by
  obtain ⟨whole, reads⟩ := heeds
  obtain ⟨readings, here⟩ := reads j
  rcases t.passesCases readings with passes | ⟨before, reading, after, split, passes, stops⟩
  · refine ⟨readings, ?_, passes⟩
    rw [here.passes t passes, here.ended, Nat.add_sub_cancel_left]
    exact here.counted
  · have stopped : (m t j).1 = .error .terminated :=
      (here.stops t before reading after split passes stops).1
    cases ran.symm.trans stopped

/-- All that a flag can do to the run is to end it as terminated: an answer is what the run comes to
in any case, and takes that the flag said to go on at every check. -/
structure OnlyStops (m : Run α) : Prop where
  same : ∀ t j k, (m t j).1 = .error .terminated ∨ (m t j).1 = (m .always k).1
  answered : ∀ t j a, (m t j).1 = .ok a → ∃ readings : List Journal,
    readings.map Journal.checks = List.range' j.checks ((m t j).2.checks - j.checks) ∧
      t.Passes readings
  heeds : Heeds m

theorem Steps.onlyStops (steps : Steps Kind m) : OnlyStops m :=
  ⟨steps.heeds.same, fun _ _ _ ran => steps.heeds.answered ran, steps.heeds⟩

end Heeds
end Run

theorem onlyStopped [Weight α] :
    (∀ b : Builder α, Run.OnlyStops b.build) ∧
    (∀ (content : Option (List UInt8)) (c : LoaderConfig),
      Run.OnlyStops (GraphFile.loadFile content c)) ∧
    (∀ (g : Graph α) (c : ComponentsConfig), Run.OnlyStops (Components.compute g c)) ∧
    (∀ (g : Graph α) (c : LouvainConfig α), Run.OnlyStops (Louvain.compute g c)) :=
  ⟨fun b => (Builder.buildSteps b).onlyStops,
    fun content c => (GraphFile.loadFileSteps _ content c).onlyStops,
    fun g c => (Components.computeSteps g c).onlyStops,
    fun g c => (Louvain.computeSteps g c).onlyStops⟩

end CommunityGraph
