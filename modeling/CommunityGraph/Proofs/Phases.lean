import CommunityGraph.Progress.Tracker
import CommunityGraph.Proofs.Entries

/-! The phases of a run. Phases follow each other and none is inside of another one, all progress is made in
one of them, and each is closed by the entry that says how it ended. One that failed ends the run. -/
namespace CommunityGraph
variable {α β : Type}

def Entry.Outer : Entry → Prop
  | .transition .. | .log _ => True
  | _ => False

theorem Entry.Logged.outer {e : Entry} (logged : e.Logged) : e.Outer := by
  cases e with
  | log => trivial
  | _ => exact logged.elim

def Entry.failed? : Entry → Option String
  | .failure name => some name
  | _ => none

structure Phase where
  name : String
  volume : Nat
  notes : List Entry

def Phase.entries (p : Phase) (last : Entry) : List Entry :=
  .begin p.name p.volume :: (p.notes ++ [last])

inductive Phased : List Entry → List Phase → Option Phase → Prop where
  | done : Phased [] [] none
  | outside {e : Entry} {entries : List Entry} {passed : List Phase} {failed : Option Phase}
      (outer : e.Outer) (rest : Phased entries passed failed) : Phased (e :: entries) passed failed
  | passed {p : Phase} {entries : List Entry} {passed : List Phase} {failed : Option Phase}
      (inner : ∀ e ∈ p.notes, e.Inner) (rest : Phased entries passed failed) :
      Phased (p.entries (.finish p.name) ++ entries) (p :: passed) failed
  | failed {p : Phase} (inner : ∀ e ∈ p.notes, e.Inner) :
      Phased (p.entries (.failure p.name)) [] (some p)

/-- How an entry finds the phases that are open: one is begun where none is open but those around the run,
progress is made in one, and the one that is closed is the one that is open. -/
def Entry.Fits (around opened : List String) : Entry → Prop
  | .begin .. => opened = around
  | .progress _ | .message _ => ∃ name, opened = name :: around
  | .finish name | .failure name => opened = name :: around
  | .transition .. | .log _ => True

def Tracker.Settles (around : List String) : Tracker → List Entry → Prop
  | tracker, [] => tracker.phases = around
  | tracker, e :: entries => e.Fits around tracker.phases ∧ Settles around (tracker.step e).1 entries

section Tracking
variable {tracker : Tracker} {around : List String} {e : Entry} {notes entries : List Entry}

theorem innerUnfailed (inner : e.Inner) : e.failed? = none := by
  cases e with
  | progress | log => rfl
  | _ => exact inner.elim

theorem outerUnfailed (outer : e.Outer) : e.failed? = none := by
  cases e with
  | transition | log => rfl
  | _ => exact outer.elim

theorem outerKept (tracker : Tracker) (outer : e.Outer) : (tracker.step e).1 = tracker := by
  cases e with
  | transition | log => rfl
  | _ => exact outer.elim

theorem innerKept (tracker : Tracker) (inner : e.Inner) :
    (tracker.step e).1.phases = tracker.phases := by
  cases e with
  | progress | log => rfl
  | _ => exact inner.elim

theorem outerFits (outer : e.Outer) (opened : List String) : e.Fits around opened := by
  cases e with
  | transition | log => trivial
  | _ => exact outer.elim

theorem innerFits (inner : e.Inner) (name : String) : e.Fits around (name :: around) := by
  cases e with
  | progress => exact ⟨name, rfl⟩
  | log => trivial
  | _ => exact inner.elim

theorem closeInnermost {name : String} (opened : tracker.phases = name :: around) (closing : LogLine) :
    (tracker.close name closing).1.phases = around := by
  rw [Tracker.close, opened]

theorem settlesInner (inner : ∀ e ∈ notes, e.Inner) {name : String}
    (opened : tracker.phases = name :: around)
    (rest : ∀ later : Tracker, later.phases = name :: around → later.Settles around entries) :
    tracker.Settles around (notes ++ entries) := by
  induction notes generalizing tracker with
  | nil => exact rest tracker opened
  | cons e notes ih =>
    have first : e.Inner := inner e (by simp)
    refine ⟨opened ▸ innerFits first name, ih (fun other member => ?_) ?_⟩
    · exact inner other (List.mem_cons_of_mem _ member)
    · rw [innerKept tracker first, opened]

end Tracking

namespace Phased
variable {entries more : List Entry} {passed others : List Phase} {failed : Option Phase}

theorem append (first : Phased entries passed none) (rest : Phased more others failed) :
    Phased (entries ++ more) (passed ++ others) failed := by
  generalize nothing : (none : Option Phase) = before at first
  induction first with
  | done => exact rest
  | outside outer _ ih => exact .outside outer (ih nothing)
  | passed inner _ ih =>
    rw [List.append_assoc]
    exact .passed inner (ih nothing)
  | failed => cases nothing

theorem ofOuter (outer : ∀ e ∈ entries, e.Outer) : Phased entries [] none := by
  induction entries with
  | nil => exact .done
  | cons e entries ih =>
    exact .outside (outer e (by simp)) (ih fun other member => outer other (List.mem_cons_of_mem _ member))

theorem inner (phased : Phased entries passed failed) :
    ∀ p ∈ passed ++ failed.toList, ∀ e ∈ p.notes, e.Inner := by
  induction phased with
  | done => simp
  | outside _ _ ih => exact ih
  | passed inner _ ih =>
    intro p member
    rcases List.mem_cons.mp member with rfl | later
    · exact inner
    · exact ih p later
  | failed inner => simpa using inner

theorem entriesFailed {p : Phase} (inner : ∀ e ∈ p.notes, e.Inner) (last : Entry) :
    (p.entries last).filterMap Entry.failed? = last.failed?.toList := by
  have quiet : p.notes.filterMap Entry.failed? = [] :=
    List.filterMap_eq_nil_iff.mpr fun e member => innerUnfailed (inner e member)
  rw [Phase.entries, List.filterMap_cons_none rfl, List.filterMap_append, quiet, List.nil_append,
    List.filterMap_cons]
  cases last.failed? <;> rfl

theorem failures (phased : Phased entries passed failed) :
    entries.filterMap Entry.failed? = (failed.map Phase.name).toList := by
  induction phased with
  | done => rfl
  | outside outer _ ih => rw [List.filterMap_cons, outerUnfailed outer, ih]
  | passed inner _ ih => rw [List.filterMap_append, entriesFailed inner, ih]; rfl
  | failed inner => exact entriesFailed inner _

theorem failureLast {p : Phase} (phased : Phased entries passed (some p)) :
    entries.getLast? = some (.failure p.name) := by
  generalize reached : some p = failed at phased
  induction phased with
  | done => cases reached
  | @outside _ rest _ _ _ _ ih =>
    have last := ih reached
    cases rest with
    | nil => cases last
    | cons => exact last
  | passed _ _ ih => rw [List.getLast?_append, ih reached, Option.some_or]
  | failed =>
    obtain rfl := Option.some.inj reached
    rw [Phase.entries, ← List.cons_append, List.getLast?_concat]

theorem settles (phased : Phased entries passed failed) (tracker : Tracker) :
    tracker.Settles tracker.phases entries := by
  generalize settled : tracker.phases = around
  induction phased generalizing tracker with
  | done => exact settled
  | outside outer _ ih =>
    refine ⟨outerFits outer _, ih _ ?_⟩
    rw [outerKept tracker outer, settled]
  | passed inner _ ih =>
    rw [Phase.entries, List.cons_append, List.append_assoc]
    refine ⟨settled, settlesInner inner (congrArg (List.cons _) settled) fun later opened => ?_⟩
    exact ⟨opened, ih _ (closeInnermost opened _)⟩
  | failed inner =>
    refine ⟨settled, settlesInner inner (congrArg (List.cons _) settled) fun later opened => ?_⟩
    exact ⟨opened, closeInnermost opened _⟩

end Phased

namespace Run

/-- How a run goes: step after step, some of them phases, until the last one or until one fails. Steps that
are no phases leave entries of the run around the phases; the work of a phase does not. -/
inductive Trace (t : Termination) : {α : Type} → Run α → Journal → Except EngineError α × Journal →
    List Phase → Option Phase → Prop where
  | outside {α : Type} {m : Run α} {j : Journal} {added : List Entry}
      (wrote : (m t j).2.entries.toList = j.entries.toList ++ added) (outer : ∀ e ∈ added, e.Outer) :
      Trace t m j (m t j) [] none
  | passed {α : Type} {m : Run α} {name : String} {volume : Nat} {j j' : Journal} {a : α}
      {notes : List Entry} (ran : m t (j.note (.begin name volume)) = (.ok a, j'))
      (wrote : j'.entries.toList = (j.note (.begin name volume)).entries.toList ++ notes)
      (inner : ∀ e ∈ notes, e.Inner) :
      Trace t (phase name volume m) j (.ok a, j'.note (.finish name)) [⟨name, volume, notes⟩] none
  | failed {α : Type} {m : Run α} {name : String} {volume : Nat} {j j' : Journal} {e : EngineError}
      {notes : List Entry} (ran : m t (j.note (.begin name volume)) = (.error e, j'))
      (wrote : j'.entries.toList = (j.note (.begin name volume)).entries.toList ++ notes)
      (inner : ∀ e ∈ notes, e.Inner) :
      Trace t (phase name volume m) j (.error e, j'.note (.failure name)) []
        (some ⟨name, volume, notes⟩)
  | stopped {α β : Type} {m : Run α} {f : α → Run β} {j j' : Journal} {e : EngineError}
      {passed : List Phase} {failed : Option Phase} (first : Trace t m j (.error e, j') passed failed) :
      Trace t (m >>= f) j (.error e, j') passed failed
  | next {α β : Type} {m : Run α} {f : α → Run β} {j j' : Journal} {a : α}
      {last : Except EngineError β × Journal} {passed others : List Phase} {failed : Option Phase}
      (first : Trace t m j (.ok a, j') passed none) (rest : Trace t (f a) j' last others failed) :
      Trace t (m >>= f) j last (passed ++ others) failed

def RaisedInside (t : Termination) (m : Run α) (j : Journal) : Prop :=
  ∃ e j' passed p, Trace t m j (.error e, j') passed (some p)

section Trace
variable {t : Termination} {m : Run α} {j : Journal} {last : Except EngineError α × Journal}
  {passed : List Phase} {failed : Option Phase}

theorem Trace.ran (trace : Trace t m j last passed failed) : m t j = last := by
  induction trace with
  | outside => rfl
  | passed ran => exact phaseRan ran
  | failed ran => rw [phase, ran]
  | stopped _ ih => rw [bindApply, ih]
  | next _ _ ih later => rw [bindRan ih, later]

theorem Trace.wrote (trace : Trace t m j last passed failed) :
    ∃ added, last.2.entries.toList = j.entries.toList ++ added ∧ Phased added passed failed := by
  induction trace with
  | outside wrote outer => exact ⟨_, wrote, .ofOuter outer⟩
  | @passed _ _ name volume j j' _ notes _ wrote inner =>
    refine ⟨Phase.entries ⟨name, volume, notes⟩ (.finish name) ++ [], ?_, .passed inner .done⟩
    simp [Phase.entries, Journal.note, wrote]
  | @failed _ _ name volume j j' _ notes _ wrote inner =>
    refine ⟨Phase.entries ⟨name, volume, notes⟩ (.failure name), ?_, .failed inner⟩
    simp [Phase.entries, Journal.note, wrote]
  | stopped _ ih => exact ih
  | next _ _ ih later =>
    obtain ⟨added, grown, phased⟩ := ih
    obtain ⟨more, ended, others⟩ := later
    exact ⟨added ++ more, by rw [ended, grown, List.append_assoc], phased.append others⟩

theorem Trace.error {p : Phase} (trace : Trace t m j last passed (some p)) :
    ∃ e, last.1 = .error e := by
  generalize reached : some p = failed at trace
  induction trace with
  | outside | passed => cases reached
  | failed => exact ⟨_, rfl⟩
  | stopped => exact ⟨_, rfl⟩
  | next _ _ _ later => exact later reached

end Trace

section Traces
variable {Good : Phase → Prop} {work : Phase → Nat} {most further whole : Nat} {m : Run α}
  {f : α → Run β} {name : String} {volume : Nat}

def Traces (Good : Phase → Prop) (work : Phase → Nat) (most : Nat) (m : Run α) : Prop :=
  ∀ t j, ∃ passed failed, Trace t m j (m t j) passed failed ∧ (∀ p ∈ passed, Good p) ∧
    ((passed ++ failed.toList).map work).sum ≤ most

def Works (Good : Phase → Prop) (work : Phase → Nat) (most : Nat) (name : String) (volume : Nat)
    (m : Run α) : Prop :=
  Steps Entry.Inner m ∧ ∀ t j notes, (m t j).2.entries.toList = j.entries.toList ++ notes →
    work ⟨name, volume, notes⟩ ≤ most ∧ ∀ a, (m t j).1 = .ok a → Good ⟨name, volume, notes⟩

theorem Steps.traces (steps : Steps Entry.Outer m) : Traces Good work 0 m := by
  intro t j
  obtain ⟨added, wrote, outer⟩ := Watched.Steps.writes steps t j
  exact ⟨[], none, .outside wrote outer, by simp, le_rfl⟩

theorem Works.traces (works : Works Good work most name volume m) :
    Traces Good work most (phase name volume m) := by
  intro t j
  obtain ⟨inner, told⟩ := works
  obtain ⟨notes, wrote, kinds⟩ := Watched.Steps.writes inner t (j.note (.begin name volume))
  obtain ⟨bounded, good⟩ := told t _ notes wrote
  cases answer : m t (j.note (.begin name volume)) with
  | mk outcome later =>
    rw [answer] at wrote good
    cases outcome with
    | ok a =>
      refine ⟨[⟨name, volume, notes⟩], none, ?_, ?_, by simpa using bounded⟩
      · rw [phaseRan answer]
        exact .passed answer wrote kinds
      · simpa using good a rfl
    | error e =>
      refine ⟨[], some ⟨name, volume, notes⟩, ?_, by simp, by simpa using bounded⟩
      have failed : phase name volume m t j = (.error e, later.note (.failure name)) := by
        rw [phase, answer]
      rw [failed]
      exact .failed answer wrote kinds

theorem Traces.bind (first : Traces Good work most m)
    (rest : ∀ a, Answers m a → Traces Good work further (f a)) (fits : most + further ≤ whole) :
    Traces Good work whole (m >>= f) := by
  intro t j
  obtain ⟨passed, failed, trace, good, bounded⟩ := first t j
  cases answer : m t j with
  | mk outcome later =>
    rw [answer] at trace
    cases outcome with
    | error e =>
      rw [bindApply, answer]
      exact ⟨passed, failed, .stopped trace, good, by omega⟩
    | ok a =>
      cases failed with
      | some p =>
        obtain ⟨e, failed⟩ := trace.error
        cases failed
      | none =>
        obtain ⟨others, failed, further, goods, more⟩ :=
          rest a ⟨t, j, congrArg Prod.fst answer⟩ t later
        rw [bindRan answer]
        refine ⟨passed ++ others, failed, .next trace further, ?_, ?_⟩
        · exact fun p member => (List.mem_append.mp member).elim (good p) (goods p)
        · simp only [Option.toList_none, List.append_nil, List.append_assoc, List.map_append,
            List.sum_append] at bounded more ⊢
          omega

theorem Steps.onwards (first : Steps Entry.Outer m)
    (rest : ∀ a, Answers m a → Traces Good work most (f a)) : Traces Good work most (m >>= f) :=
  first.traces.bind rest (by omega)

theorem Works.any (steps : Steps Entry.Inner m) :
    Works (fun _ => True) (fun _ => 0) 0 name volume m :=
  ⟨steps, fun _ _ _ _ => ⟨le_rfl, fun _ _ => trivial⟩⟩

end Traces

/-- The phases of a run, told apart by the entries that it has added: there is an entry of a failure just
if the work of a phase has failed, and it is the last of all entries. -/
structure Balanced (t : Termination) (m : Run α) (j : Journal) (added : List Entry)
    (passed : List Phase) (failed : Option Phase) : Prop where
  wrote : (m t j).2.entries.toList = j.entries.toList ++ added
  phased : Phased added passed failed
  failures : added.filterMap Entry.failed? = (failed.map Phase.name).toList
  last : ∀ p, failed = some p → added.getLast? = some (.failure p.name)
  raised : failed.isSome = true ↔ RaisedInside t m j
  settles : ∀ tracker : Tracker, tracker.Settles tracker.phases added

theorem Balanced.unfailed {t : Termination} {m : Run α} {j j' : Journal} {a : α} {added : List Entry}
    {passed : List Phase} {failed : Option Phase} (balanced : Balanced t m j added passed failed)
    (ran : m t j = (.ok a, j')) : failed = none := by
  cases failed with
  | none => rfl
  | some p =>
    obtain ⟨e, _, _, _, trace⟩ := balanced.raised.mp rfl
    cases ran.symm.trans trace.ran

theorem Traces.balanced {Good : Phase → Prop} {work : Phase → Nat} {most : Nat} {m : Run α}
    (traces : Traces Good work most m) (t : Termination) (j : Journal) :
    ∃ added passed failed, Balanced t m j added passed failed ∧ (∀ p ∈ passed, Good p) ∧
      ((passed ++ failed.toList).map work).sum ≤ most := by
  obtain ⟨passed, failed, trace, good, bounded⟩ := traces t j
  obtain ⟨added, wrote, phased⟩ := trace.wrote
  refine ⟨added, passed, failed, ⟨wrote, phased, phased.failures, ?_, ?_, phased.settles⟩, good, bounded⟩
  · rintro p rfl
    exact phased.failureLast
  constructor
  · intro some
    obtain ⟨p, rfl⟩ := Option.isSome_iff_exists.mp some
    obtain ⟨e, failed⟩ := trace.error
    exact ⟨e, (m t j).2, passed, p, by rwa [← failed]⟩
  · -- Whatever trace tells of the failure, its entries are those that were added.
    rintro ⟨e, j', others, p, other⟩
    obtain ⟨more, written, others⟩ := other.wrote
    obtain rfl : more = added := by
      rw [← other.ran, wrote] at written
      exact (List.append_cancel_left written).symm
    have alike := phased.failures.symm.trans others.failures
    cases failed with
    | none => cases alike
    | some => rfl

end Run
end CommunityGraph
