import CommunityGraph.Proofs.SlotPool

/-! Calls on leased slots. Each call ends in one of a few ways, with all that it does to the queue, the
slots and the holds. -/
namespace CommunityGraph.Leases
variable {α σ : Type}

def without (hold : Nat) (held : List (Nat × Nat)) : List (Nat × Nat) :=
  held.filter fun (other, _) => other ≠ hold

def resume (l : Leases α) (hold : Nat) : Option (Except EngineError Unit × Leases α) :=
  match l.pool.free with
  | [] => none
  | index :: rest =>
      let pool : SlotPool α := { l.pool with free := rest }
      if pool.closed then some (.error .builderClosed, ⟨pool.release index, l.held⟩)
      else
        let (_, after) := release ⟨pool, l.held⟩ hold
        some (.ok (), ⟨after.pool, (hold, index) :: after.held⟩)

def leased (l : Leases α) (hold index : Nat) (rest : List Nat) : Leases α :=
  ⟨{ l.pool with free := rest ++ (l.held.lookup hold).toList },
    (hold, index) :: without hold l.held⟩

inductive Call (α σ : Type) where
  | acquire (hold : Nat)
  | resume (hold : Nat)
  | write (hold : Nat) (slot : α)
  | drop (hold : Nat)
  | close (drain : α → σ → α × σ) (state : σ)

inductive Answer (σ : Type) where
  | leased
  | refused (e : EngineError)
  | done (held : Bool)
  | drained (state : σ)

def answered : Except EngineError Unit × Leases α → Answer σ × Leases α
  | (.ok (), l) => (.leased, l)
  | (.error e, l) => (.refused e, l)

def perform (l : Leases α) : Call α σ → Option (Answer σ × Leases α)
  | .acquire hold => (l.acquire hold).map answered
  | .resume hold => (l.resume hold).map answered
  | .write hold slot => some (.done (l.held.lookup hold).isSome, l.update hold slot)
  | .drop hold => some (.done (l.release hold).1, (l.release hold).2)
  | .close drain state =>
      (l.pool.close drain state).map fun (pool, state) => (.drained state, ⟨pool, l.held⟩)

structure Step (α σ : Type) where
  before : Leases α
  call : Call α σ
  answer : Answer σ
  after : Leases α

def performAll (l : Leases α) : List (Call α σ) → Option (List (Step α σ) × Leases α)
  | [] => some ([], l)
  | call :: calls => do
      let (answer, after) ← l.perform call
      let (steps, last) ← after.performAll calls
      some (⟨l, call, answer, after⟩ :: steps, last)

def Call.wants? : Call α σ → Option Nat
  | .acquire hold | .resume hold => some hold
  | .write _ _ | .drop _ | .close _ _ => none

def Call.closes : Call α σ → Bool
  | .close _ _ => true
  | _ => false

namespace Step

def leased? (step : Step α σ) : Option Nat :=
  match step.answer with
  | .leased => step.call.wants?.bind fun hold => step.after.held.lookup hold
  | _ => none

def freed? (step : Step α σ) : Option Nat :=
  match step.call, step.answer with
  | .drop hold, _ | .acquire hold, .leased | .resume hold, .leased => step.before.held.lookup hold
  | _, _ => none

def left? (index : Nat) (step : Step α σ) : Option α :=
  match step.call with
  | .write hold slot => if step.before.held.lookup hold = some index then some slot else none
  | .close _ _ => step.after.pool.get? index
  | _ => none

end Step

theorem acquireResumes (l : Leases α) (hold : Nat) :
    l.acquire hold =
      if l.pool.closed then some (.error .builderClosed, l) else l.resume hold := by
  obtain ⟨⟨slots, free, closed⟩, held⟩ := l
  cases closed with
  | true => rfl
  | false =>
    cases free with
    | nil => rfl
    | cons index rest => rfl

inductive Ends (l : Leases α) : Call α σ → Answer σ × Leases α → Prop where
  | refused (hold : Nat) (closed : l.pool.closed = true) :
      Ends l (.acquire hold) (.refused .builderClosed, l)
  | overtaken (hold : Nat) (closed : l.pool.closed = true) {index : Nat} {rest : List Nat}
      (free : l.pool.free = index :: rest) :
      Ends l (.resume hold)
        (.refused .builderClosed, ⟨{ l.pool with free := rest ++ [index] }, l.held⟩)
  | leased {call : Call α σ} {hold : Nat} (wants : call.wants? = some hold)
      (opened : l.pool.closed = false) {index : Nat} {rest : List Nat}
      (free : l.pool.free = index :: rest) :
      Ends l call (.leased, l.leased hold index rest)
  | written {hold index : Nat} (held : l.held.lookup hold = some index) (slot : α) :
      Ends l (.write hold slot) (.done true, ⟨l.pool.update index slot, l.held⟩)
  | dropped {hold index : Nat} (held : l.held.lookup hold = some index) :
      Ends l (.drop hold) (.done true, ⟨l.pool.release index, without hold l.held⟩)
  | unheld {call : Call α σ} {hold : Nat} (none : l.held.lookup hold = none)
      (uses : (∃ slot, call = .write hold slot) ∨ call = .drop hold) :
      Ends l call (.done false, l)
  | closed {drain : α → σ → α × σ} {state state' : σ} {pool : SlotPool α}
      (closes : l.pool.close drain state = some (pool, state')) :
      Ends l (.close drain state) (.drained state', ⟨pool, l.held⟩)

theorem withoutNone {hold : Nat} {held : List (Nat × Nat)} (none : held.lookup hold = none) :
    without hold held = held := by
  refine List.filter_eq_self.mpr fun (other, index) member => decide_eq_true ?_
  rintro rfl
  have key := List.lookup_eq_none_iff.mp none (other, index) member
  simp at key

theorem withoutSome {hold index : Nat} {held : List (Nat × Nat)}
    (distinct : (held.map Prod.fst).Nodup) (found : held.lookup hold = some index) :
    held.Perm ((hold, index) :: without hold held) := by
  induction held with
  | nil => simp at found
  | cons lease held ih =>
    obtain ⟨other, slot⟩ := lease
    obtain ⟨fresh, apart⟩ := List.nodup_cons.mp distinct
    by_cases same : hold = other
    · subst same
      obtain rfl : slot = index := by simpa using found
      have none : held.lookup hold = none := List.lookup_eq_none_iff.mpr fun lease member => by
        have key : lease.1 ∈ held.map Prod.fst := List.mem_map_of_mem member
        have different : hold ≠ lease.1 := fun equal => fresh (equal ▸ key)
        simpa using different
      have first : without hold ((hold, slot) :: held) = without hold held := by simp [without]
      rw [first, withoutNone none]
    · have later : held.lookup hold = some index := by
        simpa [List.lookup_cons, beq_false_of_ne same] using found
      have kept : without hold ((other, slot) :: held) = (other, slot) :: without hold held := by
        simp [without, Ne.symm same]
      rw [kept]
      exact ((ih apart later).cons _).trans (List.Perm.swap _ _ _)

theorem withoutSlots {held : List (Nat × Nat)} (distinct : (held.map Prod.fst).Nodup) (hold : Nat) :
    ((held.lookup hold).toList ++ (without hold held).map Prod.snd).Perm (held.map Prod.snd) := by
  cases found : held.lookup hold with
  | none => simp [withoutNone found]
  | some index => exact ((withoutSome distinct found).map Prod.snd).symm

theorem withoutHolds {held : List (Nat × Nat)} (distinct : (held.map Prod.fst).Nodup) (hold : Nat) :
    (hold :: (without hold held).map Prod.fst).Nodup := by
  refine List.nodup_cons.mpr ⟨?_, (List.filter_sublist.map _).nodup distinct⟩
  simp [without]

theorem releaseNone {l : Leases α} {hold : Nat} (none : l.held.lookup hold = none) :
    l.release hold = (false, l) := by
  simp only [release, none]

theorem releaseSome {l : Leases α} {hold index : Nat} (found : l.held.lookup hold = some index) :
    l.release hold = (true, ⟨l.pool.release index, without hold l.held⟩) := by
  simp only [release, found]
  rfl

theorem resumeOpened {l : Leases α} (opened : l.pool.closed = false) {hold index : Nat}
    {rest : List Nat} (free : l.pool.free = index :: rest) :
    l.resume hold = some (.ok (), l.leased hold index rest) := by
  obtain ⟨⟨slots, queue, closed⟩, held⟩ := l
  obtain rfl : closed = false := opened
  obtain rfl : queue = index :: rest := free
  cases found : held.lookup hold with
  | none => simp [resume, releaseNone, leased, found, withoutNone]
  | some old => simp [resume, releaseSome, leased, found, SlotPool.release]

theorem resumeClosed {l : Leases α} (closed : l.pool.closed = true) {hold index : Nat}
    {rest : List Nat} (free : l.pool.free = index :: rest) :
    l.resume hold =
      some (.error .builderClosed, ⟨{ l.pool with free := rest ++ [index] }, l.held⟩) := by
  simp [resume, free, closed, SlotPool.release]

theorem resumeNone {l : Leases α} (none : l.pool.free = []) (hold : Nat) : l.resume hold = .none := by
  simp [resume, none]

theorem resumeEnds {l after : Leases α} {hold : Nat} {call : Call α σ} {answer : Answer σ}
    (wants : call.wants? = some hold) (opened : l.pool.closed = false)
    (done : (l.resume hold).map answered = some (answer, after)) : Ends l call (answer, after) := by
  cases free : l.pool.free with
  | nil => simp [resumeNone free] at done
  | cons index rest =>
    rw [resumeOpened opened free, Option.map_some, Option.some.injEq] at done
    rw [← done]
    exact .leased wants opened free

theorem performEnds {l after : Leases α} {call : Call α σ} {answer : Answer σ}
    (done : l.perform call = some (answer, after)) : Ends l call (answer, after) := by
  cases call with
  | acquire hold =>
    rw [perform, acquireResumes] at done
    cases closed : l.pool.closed with
    | true =>
      rw [closed, if_pos rfl, Option.map_some, Option.some.injEq] at done
      rw [← done]
      exact .refused hold closed
    | false =>
      rw [closed, if_neg Bool.false_ne_true] at done
      exact resumeEnds rfl closed done
  | resume hold =>
    cases closed : l.pool.closed with
    | true =>
      cases free : l.pool.free with
      | nil => simp [perform, resumeNone free] at done
      | cons index rest =>
        rw [perform, resumeClosed closed free, Option.map_some, Option.some.injEq] at done
        rw [← done]
        exact .overtaken hold closed free
    | false => exact resumeEnds rfl closed done
  | write hold slot =>
    cases found : l.held.lookup hold with
    | none =>
      simp only [perform, update, found, Option.isSome_none, Option.some.injEq] at done
      rw [← done]
      exact .unheld found (.inl ⟨slot, rfl⟩)
    | some index =>
      simp only [perform, update, found, Option.isSome_some, Option.some.injEq] at done
      rw [← done]
      exact .written found slot
  | drop hold =>
    cases found : l.held.lookup hold with
    | none =>
      rw [perform, releaseNone found, Option.some.injEq] at done
      rw [← done]
      exact .unheld found (.inr rfl)
    | some index =>
      rw [perform, releaseSome found, Option.some.injEq] at done
      rw [← done]
      exact .dropped found
  | close drain state =>
    obtain ⟨⟨pool, state'⟩, closes, same⟩ := Option.map_eq_some_iff.mp done
    rw [← same]
    exact .closed closes

end CommunityGraph.Leases
