import CommunityGraph.Proofs.Batch.Volume
import CommunityGraph.Proofs.Phases

/-! Progress that runs make. What a run writes down is told by its outcome, and one run after the other
writes down both; so a run that ends well has made the progress of all its parts, and one that fails has
not made more. -/
namespace CommunityGraph
variable {α β γ σ : Type}

def Entry.delta : Entry → Nat
  | .progress delta => delta
  | _ => 0

def progressOf (entries : List Entry) : Nat := (entries.map Entry.delta).sum

theorem progressAppend (entries more : List Entry) :
    progressOf (entries ++ more) = progressOf entries + progressOf more := by
  rw [progressOf, List.map_append, List.sum_append, progressOf, progressOf]

theorem measuredNothing {measure : Entry → Nat} {entries : List Entry}
    (none : ∀ e ∈ entries, measure e = 0) : (entries.map measure).sum = 0 :=
  List.sum_eq_zero fun amount member => by
    obtain ⟨e, there, rfl⟩ := List.mem_map.mp member
    exact none e there

theorem Entry.Logged.still {e : Entry} (logged : e.Logged) : e.delta = 0 := by
  cases e with
  | log => rfl
  | _ => exact logged.elim

theorem failedAnswer (e : EngineError) (a : α) : (Except.error e : Except EngineError α) ≠ .ok a := by
  intro same
  cases same

structure Progressed (volume : Nat) (done : Prop) (entries : List Entry) : Prop where
  most : progressOf entries ≤ volume
  whole : done → progressOf entries = volume

section Progressed
variable {volume further : Nat} {done : Prop} {entries more : List Entry}

theorem progressedNothing (done : Prop) : Progressed 0 done [] := ⟨le_rfl, fun _ => rfl⟩

theorem progressedUndone (volume : Nat) (undone : ¬ done) : Progressed volume done [] :=
  ⟨Nat.zero_le _, fun held => absurd held undone⟩

theorem Progressed.append {last : Prop} (first : Progressed volume done entries) (ended : done)
    (rest : Progressed further last more) : Progressed (volume + further) last (entries ++ more) where
  most := by
    rw [progressAppend]
    exact Nat.add_le_add first.most rest.most
  whole finished := by rw [progressAppend, first.whole ended, rest.whole finished]

theorem Progressed.unfinished {last : Prop} (first : Progressed volume done entries) (undone : ¬ last)
    (further : Nat) : Progressed (volume + further) last entries :=
  ⟨first.most.trans (Nat.le_add_right _ _), fun held => absurd held undone⟩

end Progressed

namespace Watched
variable {m : Watched β} {f : β → Watched γ} {Goal Other : β → List Entry → Prop}
  {Later : γ → List Entry → Prop}

def Writes (Goal : β → List Entry → Prop) (m : Watched β) : Prop :=
  ∀ t j, ∃ added, (m t j).2.entries.toList = j.entries.toList ++ added ∧ Goal (m t j).1 added

theorem Writes.told (writes : Writes Goal m) {t : Termination} {j : Journal} {added : List Entry}
    (wrote : (m t j).2.entries.toList = j.entries.toList ++ added) : Goal (m t j).1 added := by
  obtain ⟨other, written, good⟩ := writes t j
  rw [wrote] at written
  exact List.append_cancel_left written ▸ good

theorem Writes.imp (writes : Writes Goal m) (goals : ∀ b added, Goal b added → Other b added) :
    Writes Other m := by
  intro t j
  obtain ⟨added, wrote, good⟩ := writes t j
  exact ⟨added, wrote, goals _ _ good⟩

theorem Writes.and (writes : Writes Goal m) (others : Writes Other m) :
    Writes (fun b added => Goal b added ∧ Other b added) m := by
  intro t j
  obtain ⟨added, wrote, good⟩ := writes t j
  exact ⟨added, wrote, good, others.told wrote⟩

theorem Writes.pure {b : β} (good : Goal b []) : Writes Goal (Watched.pure b) :=
  fun _ _ => ⟨[], (List.append_nil _).symm, good⟩

theorem Writes.noting {e : Entry} {b : β} (good : Goal b [e]) :
    Writes Goal fun _ j => (b, j.note e) :=
  fun _ _ => ⟨[e], Array.toList_push, good⟩

theorem Writes.bind (first : Writes Goal m)
    (rest : ∀ b added, Goal b added → Writes (fun c more => Later c (added ++ more)) (f b)) :
    Writes Later (Watched.bind m f) := by
  intro t j
  obtain ⟨added, grown, good⟩ := first t j
  obtain ⟨more, ended, last⟩ := rest _ _ good t (m t j).2
  refine ⟨added ++ more, ?_, last⟩
  rw [bindApply, ended, grown, List.append_assoc]

theorem Writes.guarded {stopped : β} (stops : Goal stopped []) (body : Writes Goal m) :
    Writes Goal (guarded stopped m) := by
  intro t j
  unfold Watched.guarded Watched.check
  cases t.running j.checks j with
  | false => exact ⟨[], (List.append_nil _).symm, stops⟩
  | true => exact body t j.checked

end Watched

namespace BatchQueue
variable {source : BatchSource} {batches : List Batch} {action : Action σ} {share : Batch → Nat}

theorem onwardsWrites {m : Watched (Except EngineError Unit × σ)} {failed : EngineError → σ → β}
    {rest : σ → Watched β} {First : Except EngineError Unit × σ → List Entry → Prop}
    {Goal : β → List Entry → Prop} (first : Watched.Writes First m)
    (fails : ∀ e state added, First (.error e, state) added → Goal (failed e state) added)
    (later : ∀ state added, First (.ok (), state) added →
      Watched.Writes (fun b more => Goal b (added ++ more)) (rest state)) :
    Watched.Writes Goal (onwards m failed rest) := by
  intro t j
  obtain ⟨added, grown, good⟩ := first t j
  unfold onwards
  generalize m t j = answer at grown good
  obtain ⟨⟨outcome, state⟩, after⟩ := answer
  cases outcome with
  | error e => exact ⟨added, grown, fails e state added good⟩
  | ok =>
    obtain ⟨more, ended, last⟩ := later state added good t after
    exact ⟨added ++ more, by rw [ended, grown, List.append_assoc], last⟩

def Shares (share : Batch → Nat) (action : Action σ) : Prop :=
  ∀ batch state, Watched.Writes (fun answer added => Progressed (share batch) (answer.1 = .ok ()) added)
    (action batch state)

theorem workMakes (shares : Shares share action) {left index : Nat}
    (whole : index + left = batches.length) (state : σ) :
    Watched.Writes (fun answer added =>
        Progressed ((batches.drop index).map share).sum (answer.1 = .ok ()) added)
      (work (.partitions batches) action left index state) := by
  have stops : ∀ (volume : Nat) (state : σ),
      Progressed volume ((((Except.error .terminated : Except EngineError Unit), state)).1 = .ok ()) [] :=
    fun volume _ => progressedUndone volume (failedAnswer .terminated ())
  induction left generalizing index state with
  | zero =>
    have none : batches.drop index = [] := List.drop_eq_nil_of_le (by omega)
    have ends : Watched.Writes
        (fun (answer : Except EngineError Unit × σ) added => Progressed 0 (answer.1 = .ok ()) added)
        (Watched.pure (.ok (), state)) := .pure (progressedNothing _)
    rw [none]
    unfold work
    exact .guarded (stops _ state) ends
  | succ left ih =>
    have inside : index < batches.length := by omega
    have found : (BatchSource.partitions batches).batch? index = some batches[index] :=
      List.getElem?_eq_getElem inside
    rw [workTurn, taking, found, List.drop_eq_getElem_cons inside, List.map_cons, List.sum_cons]
    refine .guarded (stops _ state) (onwardsWrites (shares _ state) ?_ ?_)
    · exact fun e state added made => made.unfinished (failedAnswer e ()) _
    · intro state added made
      exact (ih (by omega) state).imp fun answer more rest => made.append rfl rest

theorem idleWrites (workers : Nat) : Watched.Writes (fun _ added => added = []) (idle workers) := by
  induction workers with
  | zero => exact .pure rfl
  | succ workers ih => exact .guarded rfl ih

theorem consumeMakes (shares : Shares share action) (concurrency : Nat) (state : σ) :
    Watched.Writes (fun answer added => Progressed (batches.map share).sum (answer.1 = .ok ()) added)
      ((ofPartitions batches).consume concurrency action state) := by
  rw [consumeOnwards]
  refine onwardsWrites (workMakes shares (Nat.zero_add _) state) ?_ ?_
  · exact fun e state added made => ⟨made.most, fun ended => absurd ended (failedAnswer e ())⟩
  · intro after added made
    refine (idleWrites _).bind fun outcome more none => .pure ?_
    rw [none, List.append_nil, List.append_nil]
    exact ⟨made.most, fun _ => made.whole rfl⟩

end BatchQueue

namespace Run
variable {volume further whole : Nat} {m : Run α} {f : α → Run β}

def Makes (volume : Nat) (m : Run α) : Prop :=
  Watched.Writes (fun outcome added => Progressed volume (∃ a, outcome = .ok a) added) m

theorem writesBind {First : Except EngineError α → List Entry → Prop}
    {Goal : Except EngineError β → List Entry → Prop} (first : Watched.Writes First m)
    (fails : ∀ e added, First (.error e) added → Goal (.error e) added)
    (rest : ∀ a added, Answers m a → First (.ok a) added →
      Watched.Writes (fun outcome more => Goal outcome (added ++ more)) (f a)) :
    Watched.Writes Goal (m >>= f : Run β) := by
  intro t j
  obtain ⟨added, grown, good⟩ := first t j
  cases answer : m t j with
  | mk outcome after =>
    rw [answer] at grown good
    cases outcome with
    | error e =>
      rw [bindApply, answer]
      exact ⟨added, grown, fails e added good⟩
    | ok a =>
      obtain ⟨more, ended, last⟩ := rest a added ⟨t, j, congrArg Prod.fst answer⟩ good t after
      rw [bindRan answer]
      exact ⟨added ++ more, by rw [ended, grown, List.append_assoc], last⟩

theorem Makes.bind (first : Makes volume m) (rest : ∀ a, Answers m a → Makes further (f a))
    (adds : volume + further = whole) : Makes whole (m >>= f) := by
  subst adds
  refine writesBind first ?_ ?_
  · exact fun e added made => made.unfinished (not_exists.mpr (failedAnswer e)) _
  · exact fun a added answers made =>
      (rest a answers).imp fun outcome more last => made.append ⟨a, rfl⟩ last

theorem makesPure (a : α) : Makes 0 (pure a : Run α) := .pure (progressedNothing _)

theorem makesFail (volume : Nat) (e : EngineError) : Makes volume (fail e : Run α) :=
  .pure (progressedUndone volume (not_exists.mpr (failedAnswer e)))

theorem makesNote (delta : Nat) : Makes delta (note (.progress delta)) :=
  .noting ⟨le_rfl, fun _ => rfl⟩

theorem Steps.silent (steps : Steps Entry.Logged m) : Makes 0 m := by
  intro t j
  obtain ⟨added, wrote, logged⟩ := Watched.Steps.writes steps t j
  have none : progressOf added = 0 := measuredNothing fun e member => (logged e member).still
  exact ⟨added, wrote, none.le, fun _ => none⟩

theorem Steps.silentBefore (first : Steps Entry.Logged m) (rest : ∀ a, Answers m a → Makes volume (f a)) :
    Makes volume (m >>= f) :=
  first.silent.bind rest (Nat.zero_add volume)

theorem Makes.silently (first : Makes volume m) (rest : ∀ a, Steps Entry.Logged (f a)) :
    Makes volume (m >>= f) :=
  first.bind (fun a _ => (rest a).silent) (Nat.add_zero volume)

end Run

theorem BatchQueue.Covers.makes {q : BatchQueue} {total : Nat} (covers : q.Covers total)
    {degree : Nat → Nat} {action : Action σ} (shares : Shares (Batch.volume degree) action)
    (concurrency : Nat) (state : σ) :
    Run.Makes ((List.range total).map degree).sum (q.consumeAll concurrency action state) := by
  obtain ⟨batches, lists, spans⟩ := covers
  have volumes : ((List.range total).map degree).sum = (batches.map (Batch.volume degree)).sum := by
    rw [Batch.volumesSum, spans.elements, Nat.sub_zero, ← List.range_eq_range']
  rw [consumeAllOnwards, funext₂ (lists.consume concurrency action state), volumes]
  refine onwardsWrites (consumeMakes shares concurrency state) ?_ ?_
  · intro e state added made
    exact ⟨made.most, fun ended => absurd ended (not_exists.mpr (failedAnswer e))⟩
  · intro state added made
    refine .pure ?_
    rw [List.append_nil]
    exact ⟨made.most, fun _ => made.whole rfl⟩

end CommunityGraph
