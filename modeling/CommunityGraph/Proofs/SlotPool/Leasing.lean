import Mathlib.Data.List.Rotate
import Mathlib.Data.List.Perm.Basic
import Mathlib.Data.Set.List
import CommunityGraph.Proofs.SlotPool.Calls

/-! Leases under any sequence of calls. A slot is free or leased, never both and never neither; slots are
leased in the order in which they became free; and what is in a slot was left there by its last lease or
by a drain. -/
namespace CommunityGraph.Leases
open SlotPool
variable {α σ : Type}

def leasedIn (steps : List (Step α σ)) : List Nat := steps.filterMap Step.leased?

def freedIn (steps : List (Step α σ)) : List Nat := steps.filterMap Step.freed?

def leftIn (slots : List α) (index : Nat) (steps : List (Step α σ)) : List α :=
  (slots[index]?).toList ++ steps.filterMap (Step.left? index)

section Appended
variable (steps more : List (Step α σ)) (step : Step α σ)

theorem leasedInAppend : leasedIn (steps ++ more) = leasedIn steps ++ leasedIn more :=
  List.filterMap_append

theorem leasedInOne : leasedIn [step] = step.leased?.toList := by
  simp [leasedIn, List.filterMap_eq_flatMap_toList]

theorem freedInStep : freedIn (steps ++ [step]) = freedIn steps ++ step.freed?.toList := by
  simp [freedIn, List.filterMap_eq_flatMap_toList]

theorem quietStep (leased : step.leased? = none) (freed : step.freed? = none) :
    leasedIn (steps ++ [step]) = leasedIn steps ∧ freedIn (steps ++ [step]) = freedIn steps := by
  rw [leasedInAppend, leasedInOne, freedInStep, leased, freed]
  simp

theorem leftInStep (slots : List α) (index : Nat) :
    leftIn slots index (steps ++ [step]) = leftIn slots index steps ++ (step.left? index).toList := by
  simp [leftIn, List.filterMap_eq_flatMap_toList]

end Appended

structure Tracks (slots : List α) (steps : List (Step α σ)) (l : Leases α) : Prop where
  size : l.pool.slots.size = slots.length
  whole : (l.pool.free ++ l.held.map Prod.snd).Perm (List.range slots.length)
  holds : (l.held.map Prod.fst).Nodup
  ordered : leasedIn steps <+: List.range slots.length ++ freedIn steps
  next : l.pool.closed = false →
    leasedIn steps ++ l.pool.free = List.range slots.length ++ freedIn steps
  contents : ∀ index, l.pool.get? index = (leftIn slots index steps).getLast?
  idle : l.pool.closed = true → l.held = []
  told : l.pool.closed = true ↔ ∃ step ∈ steps, step.call.closes = true

theorem ofListTracks (slots : List α) :
    Tracks slots ([] : List (Step α σ)) (ofList slots) where
  size := by simp [ofList, SlotPool.ofList]
  whole := by simp [ofList, SlotPool.ofList]
  holds := by simp [ofList]
  ordered := List.nil_prefix
  next _ := by simp [ofList, SlotPool.ofList, leasedIn, freedIn]
  contents index := by
    cases found : slots[index]? <;> simp [ofList, SlotPool.ofList, SlotPool.get?, leftIn, found]
  idle _ := rfl
  told := by simp [ofList, SlotPool.ofList]

section OneStep
variable {slots : List α} {steps : List (Step α σ)} {l after : Leases α} {call : Call α σ}
  {answer : Answer σ} {hold index : Nat} {rest : List Nat}

theorem Tracks.heldInside (tracks : Tracks slots steps l)
    (found : l.held.lookup hold = some index) : index < slots.length := by
  have member : index ∈ l.held.map Prod.snd := by
    have split := (withoutSome tracks.holds found).map Prod.snd
    rw [split.mem_iff]
    simp
  have inside := tracks.whole.mem_iff.mp (List.mem_append_right _ member)
  simpa using inside

theorem Tracks.closable (tracks : Tracks slots steps l) :
    l.pool.free.length < l.pool.capacity ↔ l.held ≠ [] := by
  have total := tracks.whole.length_eq
  rw [List.length_append, List.length_map, List.length_range] at total
  rw [SlotPool.capacity, tracks.size, ← List.length_pos_iff]
  omega

theorem toldStep {step : Step α σ} (same : step.call.closes = false) :
    (∃ one ∈ steps ++ [step], one.call.closes = true) ↔ ∃ one ∈ steps, one.call.closes = true := by
  simp [or_and_right, exists_or, same]

theorem Tracks.idleStep (tracks : Tracks slots steps l) {step : Step α σ}
    (leased : step.leased? = none) (freed : step.freed? = none)
    (left : ∀ index, step.left? index = none) (closes : step.call.closes = false) :
    Tracks slots (steps ++ [step]) l := by
  obtain ⟨leases, frees⟩ := quietStep steps step leased freed
  exact {
    size := tracks.size
    whole := tracks.whole
    holds := tracks.holds
    ordered := by rw [leases, frees]; exact tracks.ordered
    next := by rw [leases, frees]; exact tracks.next
    contents := fun index => by
      rw [leftInStep, left]
      simpa using tracks.contents index
    idle := tracks.idle
    told := tracks.told.trans (toldStep closes).symm }

theorem Tracks.overtaken (tracks : Tracks slots steps l) (closed : l.pool.closed = true)
    (free : l.pool.free = index :: rest) :
    Tracks slots steps ⟨{ l.pool with free := rest ++ [index] }, l.held⟩ where
  size := tracks.size
  whole := by
    refine (List.Perm.append_right _ ?_).trans tracks.whole
    rw [free]
    exact List.perm_append_singleton index rest
  holds := tracks.holds
  ordered := tracks.ordered
  next opened := absurd (closed.symm.trans opened) Bool.true_eq_false.mp
  contents := tracks.contents
  idle := tracks.idle
  told := tracks.told

theorem leasedStep (step : Step α σ) (wants : step.call.wants? = some hold)
    (answer : step.answer = .leased) :
    step.leased? = step.after.held.lookup hold ∧ step.freed? = step.before.held.lookup hold ∧
      (∀ index, step.left? index = none) ∧ step.call.closes = false := by
  obtain ⟨before, call, given, after⟩ := step
  obtain rfl : given = .leased := answer
  cases call with
  | acquire other | resume other =>
    obtain rfl : other = hold := by simpa [Call.wants?] using wants
    exact ⟨rfl, rfl, fun _ => rfl, rfl⟩
  | write _ _ | drop _ | close _ _ => simp [Call.wants?] at wants

theorem Tracks.leased (tracks : Tracks slots steps l) (opened : l.pool.closed = false)
    (free : l.pool.free = index :: rest) (wants : call.wants? = some hold) :
    Tracks slots (steps ++ [⟨l, call, .leased, l.leased hold index rest⟩])
      (l.leased hold index rest) := by
  obtain ⟨leased, freed, left, closes⟩ :=
    leasedStep ⟨l, call, .leased, l.leased hold index rest⟩ wants rfl
  have first : (l.leased hold index rest).held.lookup hold = some index := by simp [Leases.leased]
  have order : leasedIn (steps ++ [⟨l, call, .leased, l.leased hold index rest⟩]) ++
      (l.leased hold index rest).pool.free =
      List.range slots.length ++ freedIn (steps ++ [⟨l, call, .leased, l.leased hold index rest⟩]) := by
    rw [leasedInAppend, leasedInOne, freedInStep, leased, freed, first, ← List.append_assoc,
      ← tracks.next opened, free]
    simp [Leases.leased]
  exact {
    size := tracks.size
    whole := by
      refine List.Perm.trans ?_ (free ▸ tracks.whole)
      refine List.perm_middle.trans (List.Perm.cons index ?_)
      have kept := (withoutSlots tracks.holds hold).append_left rest
      rwa [← List.append_assoc] at kept
    holds := withoutHolds tracks.holds hold
    ordered := ⟨_, order⟩
    next _ := order
    contents := fun other => by
      rw [leftInStep, left, Option.toList_none, List.append_nil]
      exact tracks.contents other
    idle := fun closed => absurd (opened.symm.trans closed) Bool.false_ne_true
    told := tracks.told.trans (toldStep closes).symm }

theorem Tracks.written (tracks : Tracks slots steps l) (found : l.held.lookup hold = some index)
    (slot : α) :
    Tracks slots (steps ++ [⟨l, .write hold slot, .done true, ⟨l.pool.update index slot, l.held⟩⟩])
      ⟨l.pool.update index slot, l.held⟩ := by
  obtain ⟨leases, frees⟩ := quietStep steps
    ⟨l, .write hold slot, .done true, ⟨l.pool.update index slot, l.held⟩⟩ rfl rfl
  exact {
    size := by simp [SlotPool.update, tracks.size]
    whole := tracks.whole
    holds := tracks.holds
    ordered := by rw [leases, frees]; exact tracks.ordered
    next := by rw [leases, frees]; exact tracks.next
    contents := fun other => by
      rw [leftInStep]
      by_cases same : index = other
      · subst same
        have inside : index < l.pool.slots.size := tracks.size ▸ tracks.heldInside found
        simp [Step.left?, found, SlotPool.get?, SlotPool.update, inside]
      · have kept : (l.pool.update index slot).get? other = l.pool.get? other :=
          Array.getElem?_setIfInBounds_ne same
        simp [Step.left?, found, same, kept, tracks.contents]
    idle := tracks.idle
    told := tracks.told.trans (toldStep rfl).symm }

theorem Tracks.dropped (tracks : Tracks slots steps l)
    (found : l.held.lookup hold = some index) :
    Tracks slots
      (steps ++ [⟨l, .drop hold, .done true, ⟨l.pool.release index, without hold l.held⟩⟩])
      ⟨l.pool.release index, without hold l.held⟩ where
  size := tracks.size
  whole := by
    refine List.Perm.trans ?_ tracks.whole
    have kept := (withoutSlots tracks.holds hold).append_left l.pool.free
    rwa [found, ← List.append_assoc] at kept
  holds := (List.nodup_cons.mp (withoutHolds tracks.holds hold)).2
  ordered := by
    rw [leasedInAppend, leasedInOne, freedInStep]
    simpa [Step.leased?] using tracks.ordered.trans (List.prefix_append _ _)
  next opened := by
    rw [leasedInAppend, leasedInOne, freedInStep]
    simp [Step.leased?, Step.freed?, found, SlotPool.release, ← List.append_assoc, tracks.next opened]
  contents other := by
    rw [leftInStep]
    simpa [Step.left?, SlotPool.get?, SlotPool.release] using tracks.contents other
  idle closed := by simp [without, tracks.idle closed]
  told := tracks.told.trans (toldStep rfl).symm

theorem Tracks.closed (tracks : Tracks slots steps l) {drain : α → σ → α × σ} {state state' : σ}
    {pool : SlotPool α} (closes : l.pool.close drain state = some (pool, state')) :
    Tracks slots (steps ++ [⟨l, .close drain state, .drained state', ⟨pool, l.held⟩⟩])
      ⟨pool, l.held⟩ := by
  obtain ⟨all, rfl, rfl⟩ := closeSome.mp closes
  have unheld : l.held = [] := by
    rw [tracks.closable] at all
    exact not_not.mp all
  obtain ⟨leases, frees⟩ := quietStep steps
    ⟨l, .close drain state, .drained _, ⟨⟨_, l.pool.free, true⟩, l.held⟩⟩ rfl rfl
  exact {
    size := by simp [drainSlotsSize, tracks.size]
    whole := tracks.whole
    holds := tracks.holds
    ordered := by rw [leases, frees]; exact tracks.ordered
    next := fun opened => by simp at opened
    contents := fun index => by
      rw [leftInStep]
      cases found : (drainSlots drain l.pool.free l.pool.slots state).1[index]? with
      | some slot => simp [Step.left?, SlotPool.get?, found]
      | none =>
        -- outside of the pool nothing was ever left
        have outside : l.pool.slots.size ≤ index := by simpa [drainSlotsSize] using found
        simp [Step.left?, SlotPool.get?, found, ← tracks.contents, outside]
    idle := fun _ => unheld
    told := by simp [Call.closes] }

theorem Tracks.step (tracks : Tracks slots steps l) (done : l.perform call = some (answer, after)) :
    Tracks slots (steps ++ [⟨l, call, answer, after⟩]) after := by
  cases performEnds done with
  | refused hold closed => exact tracks.idleStep rfl rfl (fun _ => rfl) rfl
  | overtaken hold closed free =>
    exact (tracks.overtaken closed free).idleStep rfl rfl (fun _ => rfl) rfl
  | leased wants opened free => exact tracks.leased opened free wants
  | written found slot => exact tracks.written found slot
  | dropped found => exact tracks.dropped found
  | unheld none uses =>
    obtain ⟨slot, rfl⟩ | rfl := uses
    · exact tracks.idleStep rfl rfl (fun _ => by simp [Step.left?, none]) rfl
    · exact tracks.idleStep rfl none (fun _ => rfl) rfl
  | closed closes => exact tracks.closed closes

end OneStep

theorem performAllCons {l last : Leases α} {call : Call α σ} {calls : List (Call α σ)}
    {steps : List (Step α σ)} (done : l.performAll (call :: calls) = some (steps, last)) :
    ∃ answer after more, l.perform call = some (answer, after) ∧
      after.performAll calls = some (more, last) ∧ steps = ⟨l, call, answer, after⟩ :: more := by
  obtain ⟨⟨answer, after⟩, one, done⟩ := Option.bind_eq_some_iff.mp done
  obtain ⟨⟨more, _⟩, all, same⟩ := Option.bind_eq_some_iff.mp done
  cases same
  exact ⟨answer, after, more, one, all, rfl⟩

theorem performAllCalls {l last : Leases α} {calls : List (Call α σ)} {steps : List (Step α σ)}
    (done : l.performAll calls = some (steps, last)) : steps.map Step.call = calls := by
  induction calls generalizing l steps with
  | nil =>
    cases done
    rfl
  | cons call calls ih =>
    obtain ⟨answer, after, more, -, all, rfl⟩ := performAllCons done
    rw [List.map_cons, ih all]

theorem Tracks.run {slots : List α} {sofar steps : List (Step α σ)} {l last : Leases α}
    {calls : List (Call α σ)} (tracks : Tracks slots sofar l)
    (done : l.performAll calls = some (steps, last)) : Tracks slots (sofar ++ steps) last := by
  induction calls generalizing sofar l steps with
  | nil =>
    cases done
    simpa using tracks
  | cons call calls ih =>
    obtain ⟨answer, after, more, one, all, rfl⟩ := performAllCons done
    simpa using ih (tracks.step one) all

theorem Tracks.during {slots : List α} {before steps sofar later : List (Step α σ)}
    {step : Step α σ} {l last : Leases α} {calls : List (Call α σ)}
    (tracks : Tracks slots before l) (done : l.performAll calls = some (steps, last))
    (split : steps = sofar ++ step :: later) :
    Tracks slots (before ++ sofar) step.before ∧
      step.before.perform step.call = some (step.answer, step.after) := by
  induction sofar generalizing before l calls steps with
  | nil =>
    cases calls with
    | nil => cases done; simp at split
    | cons call calls =>
      obtain ⟨answer, after, more, one, -, rfl⟩ := performAllCons done
      obtain ⟨rfl, -⟩ := List.cons.inj split
      exact ⟨by simpa using tracks, one⟩
  | cons first sofar ih =>
    cases calls with
    | nil => cases done; simp at split
    | cons call calls =>
      obtain ⟨answer, after, more, one, all, rfl⟩ := performAllCons done
      obtain ⟨rfl, others⟩ := List.cons.inj split
      simpa using ih (tracks.step one) all others

theorem performAllAppend {l half last : Leases α} {calls others : List (Call α σ)}
    {steps more : List (Step α σ)} (first : l.performAll calls = some (steps, half))
    (second : half.performAll others = some (more, last)) :
    l.performAll (calls ++ others) = some (steps ++ more, last) := by
  induction calls generalizing l steps with
  | nil =>
    cases first
    exact second
  | cons call calls ih =>
    obtain ⟨answer, after, rest, one, all, rfl⟩ := performAllCons first
    simp [performAll, one, ih all]

section RoundRobin
variable {l : Leases α} {hold index : Nat} {rest : List Nat}

def turn (hold : Nat) (writes : List α) : List (Call α σ) :=
  .acquire hold :: writes.map (.write hold) ++ [.drop hold]

theorem performWrites (found : l.held.lookup hold = some index) (writes : List α) :
    ∃ (steps : List (Step α σ)) (after : Leases α),
      l.performAll (writes.map (.write hold)) = some (steps, after) ∧ leasedIn steps = [] ∧
      after.pool.free = l.pool.free ∧ after.pool.closed = l.pool.closed ∧ after.held = l.held := by
  induction writes generalizing l with
  | nil => exact ⟨[], l, rfl, rfl, rfl, rfl, rfl⟩
  | cons slot writes ih =>
    have one : l.perform (.write hold slot : Call α σ) =
        some (.done true, ⟨l.pool.update index slot, l.held⟩) := by
      simp [perform, update, found]
    obtain ⟨steps, after, all, none, free, closed, held⟩ :=
      ih (l := ⟨l.pool.update index slot, l.held⟩) found
    refine ⟨⟨l, .write hold slot, .done true, ⟨l.pool.update index slot, l.held⟩⟩ :: steps, after,
      by simp [performAll, one, all], ?_, free, closed, held⟩
    simpa [leasedIn, Step.leased?] using none

theorem turnOnce (opened : l.pool.closed = false) (unused : l.held.lookup hold = none)
    (free : l.pool.free = index :: rest) (writes : List α) :
    ∃ (steps : List (Step α σ)) (after : Leases α),
      l.performAll (turn hold writes) = some (steps, after) ∧ leasedIn steps = [index] ∧
      after.pool.free = rest ++ [index] ∧ after.pool.closed = false ∧ after.held = l.held := by
  have acquired : l.performAll [(.acquire hold : Call α σ)] =
      some ([⟨l, .acquire hold, .leased, l.leased hold index rest⟩], l.leased hold index rest) := by
    simp [performAll, perform, acquireResumes, opened, resumeOpened opened free, answered]
  have kept : (l.leased hold index rest).held.lookup hold = some index := by simp [Leases.leased]
  obtain ⟨steps, half, written, none, queue, closed, held⟩ := performWrites (σ := σ) kept writes
  have found : half.held.lookup hold = some index := held ▸ kept
  have dropped : half.performAll [(.drop hold : Call α σ)] =
      some ([⟨half, .drop hold, .done true, ⟨half.pool.release index, without hold half.held⟩⟩],
        ⟨half.pool.release index, without hold half.held⟩) := by
    simp [performAll, perform, releaseSome found]
  refine ⟨_, _, performAllAppend (performAllAppend acquired written) dropped, ?_, ?_,
    closed.trans opened, ?_⟩
  · rw [leasedInAppend, leasedInAppend, none]
    simp [leasedIn, Step.leased?, Call.wants?, kept]
  · simp [SlotPool.release, queue, Leases.leased, unused]
  · have only : without hold ((hold, index) :: l.held) = without hold l.held := by simp [without]
    simp [held, Leases.leased, only, withoutNone unused]

theorem turnsRotate (opened : l.pool.closed = false) (unused : l.held.lookup hold = none)
    (stocked : l.pool.free ≠ []) (rounds : List (List α)) :
    ∃ (steps : List (Step α σ)) (after : Leases α),
      l.performAll (rounds.flatMap (turn hold)) = some (steps, after) ∧
      (leasedIn steps).map some =
        (List.range rounds.length).map (fun k => l.pool.free[k % l.pool.free.length]?) ∧
      after.pool.free = l.pool.free.rotate rounds.length ∧ after.held = l.held := by
  induction rounds generalizing l with
  | nil => exact ⟨[], l, rfl, rfl, by simp, rfl⟩
  | cons writes rounds ih =>
    obtain ⟨index, rest, free⟩ := List.exists_cons_of_ne_nil stocked
    obtain ⟨steps, half, once, first, queue, stillOpen, held⟩ :=
      turnOnce (σ := σ) opened unused free writes
    have rotated : half.pool.free = l.pool.free.rotate 1 := by simp [queue, free]
    obtain ⟨more, after, again, later, last, kept⟩ :=
      ih stillOpen (held ▸ unused) (by simp [queue])
    refine ⟨steps ++ more, after, performAllAppend once again, ?_, ?_, kept.trans held⟩
    · rw [leasedInAppend, List.map_append, first, List.map_singleton, later, List.length_cons,
        List.range_succ_eq_map, List.map_cons, List.map_map, rotated, List.length_rotate]
      have behind (k : Nat) : (l.pool.free.rotate 1)[k % l.pool.free.length]? =
          l.pool.free[(k + 1) % l.pool.free.length]? := by
        rw [List.getElem?_rotate (Nat.mod_lt k (List.length_pos_iff.mpr stocked)), Nat.mod_add_mod]
      have head : l.pool.free[0 % l.pool.free.length]? = some index := by simp [free]
      simp only [behind, head]
      rfl
    · rw [last, rotated, List.rotate_rotate, List.length_cons, Nat.add_comm]

end RoundRobin

def Waits (l : Leases α) : Call α σ → Prop
  | .acquire _ => l.pool.closed = false ∧ l.pool.free = []
  | .resume _ => l.pool.free = []
  | .write _ _ | .drop _ => False
  | .close _ _ => l.held ≠ []

theorem resumeWaits (l : Leases α) (hold : Nat) : l.resume hold = none ↔ l.pool.free = [] := by
  cases free : l.pool.free with
  | nil => simp [resumeNone free]
  | cons index rest =>
    cases closed : l.pool.closed with
    | true => simp [resumeClosed closed free]
    | false => simp [resumeOpened closed free]

theorem Tracks.waits {slots : List α} {steps : List (Step α σ)} {l : Leases α}
    (tracks : Tracks slots steps l) (call : Call α σ) : l.perform call = none ↔ l.Waits call := by
  cases call with
  | acquire hold =>
    rw [perform, Option.map_eq_none_iff, acquireResumes, Waits, ← resumeWaits l hold]
    cases l.pool.closed <;> simp
  | resume hold => rw [perform, Option.map_eq_none_iff, Waits, resumeWaits]
  | write hold slot => simp [perform, Waits]
  | drop hold => simp [perform, Waits]
  | close drain state =>
    rw [perform, Option.map_eq_none_iff, Waits, ← tracks.closable, close]
    split <;> simp [*]

structure Drained (slots : List α) (l : Leases α) (drain : α → σ → α × σ) (state : σ)
    (pool : SlotPool α) (state' : σ) : Prop where
  whole : l.pool.free.Perm (List.range slots.length)
  handed : ∃ queue, l.pool.free.map l.pool.get? = queue.map some ∧
    state' = drainAll drain queue state ∧
    l.pool.free.map pool.get? = (leftBy drain queue state).map some
  free : pool.free = l.pool.free
  closed : pool.closed = true

structure Orderly (slots : List α) (steps : List (Step α σ)) (l : Leases α) : Prop where
  whole : (l.pool.free ++ l.held.map Prod.snd).Perm (List.range slots.length)
  ordered : leasedIn steps <+: List.range slots.length ++ freedIn steps
  next : l.pool.closed = false →
    leasedIn steps ++ l.pool.free = List.range slots.length ++ freedIn steps
  turns : ∀ hold, l.pool.closed = false → l.held.lookup hold = none → l.pool.free ≠ [] →
    ∀ rounds : List (List α), ∃ (more : List (Step α σ)) (after : Leases α),
      l.performAll (rounds.flatMap (turn hold)) = some (more, after) ∧
      (leasedIn more).map some =
        (List.range rounds.length).map (fun k => l.pool.free[k % l.pool.free.length]?) ∧
      after.pool.free = l.pool.free.rotate rounds.length ∧ after.held = l.held
  contents : ∀ index, l.pool.get? index = (leftIn slots index steps).getLast?
  drains : ∀ (drain : α → σ → α × σ) (state state' : σ) (pool : SlotPool α),
    l.pool.close drain state = some (pool, state') → Drained slots l drain state pool state'
  told : l.pool.closed = true ↔ ∃ step ∈ steps, step.call.closes = true
  shut : l.pool.closed = true → l.held = [] ∧
    ∀ hold, l.acquire hold = some (.error .builderClosed, l) ∧
      ∀ answer after, l.resume hold = some (answer, after) →
        answer = .error .builderClosed ∧ after.held = [] ∧
        after.pool.slots = l.pool.slots ∧ after.pool.closed = true ∧
        after.pool.free.Perm (List.range slots.length)
  waits : ∀ call : Call α σ, l.perform call = none ↔ l.Waits call

section AnyRun
variable {slots : List α} {steps : List (Step α σ)} {l : Leases α}

theorem Tracks.allFree (tracks : Tracks slots steps l) (unheld : l.held = []) :
    l.pool.free.Perm (List.range slots.length) := by
  simpa [unheld] using tracks.whole

theorem Tracks.queued (tracks : Tracks slots steps l) :
    ∃ queue : List α, l.pool.free.map l.pool.get? = queue.map some := by
  have inside : l.pool.free.map l.pool.get? ∈ Set.range (List.map some) := by
    rw [Set.range_list_map]
    intro slot member
    obtain ⟨index, free, rfl⟩ := List.mem_map.mp member
    have below : index < l.pool.slots.size := by
      have listed := tracks.whole.mem_iff.mp (List.mem_append_left _ free)
      rw [tracks.size]
      exact List.mem_range.mp listed
    exact ⟨l.pool.slots[index], (Array.getElem?_eq_getElem below).symm⟩
  obtain ⟨queue, same⟩ := inside
  exact ⟨queue, same.symm⟩

theorem Tracks.drained (tracks : Tracks slots steps l) {drain : α → σ → α × σ} {state state' : σ}
    {pool : SlotPool α} (closes : l.pool.close drain state = some (pool, state')) :
    Drained slots l drain state pool state' := by
  obtain ⟨all, rfl, rfl⟩ := closeSome.mp closes
  rw [tracks.closable, not_not] at all
  have whole := tracks.allFree all
  have distinct : l.pool.free.Nodup := whole.nodup_iff.mpr List.nodup_range
  obtain ⟨queue, queued⟩ := tracks.queued
  exact {
    whole := whole
    handed := ⟨queue, queued, drainSlotsAll drain distinct queued state,
      drainSlotsLeft drain distinct queued state⟩
    free := rfl
    closed := rfl }

theorem Tracks.shut (tracks : Tracks slots steps l) (closed : l.pool.closed = true) (hold : Nat) :
    l.acquire hold = some (.error .builderClosed, l) ∧
      ∀ answer after, l.resume hold = some (answer, after) →
        answer = .error .builderClosed ∧ after.held = [] ∧
        after.pool.slots = l.pool.slots ∧ after.pool.closed = true ∧
        after.pool.free.Perm (List.range slots.length) := by
  refine ⟨by rw [acquireResumes, if_pos closed], fun answer after done => ?_⟩
  cases free : l.pool.free with
  | nil => simp [resumeNone free] at done
  | cons index rest =>
    rw [resumeClosed closed free] at done
    cases done
    have turned := tracks.overtaken closed free
    exact ⟨rfl, turned.idle closed, rfl, closed, turned.allFree (turned.idle closed)⟩

theorem Tracks.orderly (tracks : Tracks slots steps l) : Orderly slots steps l where
  whole := tracks.whole
  ordered := tracks.ordered
  next := tracks.next
  turns _ := turnsRotate
  contents := tracks.contents
  drains _ _ _ _ := tracks.drained
  told := tracks.told
  shut closed := ⟨tracks.idle closed, tracks.shut closed⟩
  waits := tracks.waits

end AnyRun

theorem leasesOrderly {slots : List α} {calls : List (Call α σ)} {steps : List (Step α σ)}
    {l : Leases α} (done : (ofList slots).performAll calls = some (steps, l)) :
    steps.map Step.call = calls ∧ Orderly slots steps l ∧
      ∀ sofar step later, steps = sofar ++ step :: later →
        Orderly slots sofar step.before ∧
        step.before.perform step.call = some (step.answer, step.after) := by
  refine ⟨performAllCalls done, ((ofListTracks slots).run done).orderly,
    fun sofar step later split => ?_⟩
  obtain ⟨tracks, one⟩ := (ofListTracks slots).during done split
  exact ⟨tracks.orderly, one⟩

def sampleCalls : List (Call Nat Nat) :=
  [.acquire 0, .acquire 1, .write 0 11, .drop 1, .acquire 0, .write 0 21, .drop 0,
    .close (fun slot total => (0, total + slot)) 5, .acquire 2, .resume 3]

theorem sampleLeases :
    ∃ steps l, (ofList [10, 20]).performAll sampleCalls = some (steps, l) ∧
      Orderly [10, 20] steps l ∧ leasedIn steps = [0, 1, 1] ∧ freedIn steps = [1, 0, 1] ∧
      steps[7]?.map Step.answer = some (.drained 37) ∧ l.pool.free = [1, 0] := by
  obtain ⟨⟨steps, l⟩, done⟩ : ∃ ended, (ofList [10, 20]).performAll sampleCalls = some ended :=
    ⟨_, rfl⟩
  refine ⟨steps, l, done, (leasesOrderly done).2.1, ?_⟩
  cases done
  exact ⟨rfl, rfl, rfl, rfl⟩

end CommunityGraph.Leases
