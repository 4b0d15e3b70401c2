import Mathlib.Data.List.Basic
import Mathlib.Algebra.Group.Nat.Even

/-! The order in which entries reach the shared lists. Additions go round the slots; a slot lets go of
all it holds as soon as that is its capacity, and in the end the slots are emptied in queue order. -/
namespace CommunityGraph.Schedule
variable {ε δ : Type}

def hold (capacity : Nat) : List ε → List ε → List ε × List ε
  | pending, [] => ([], pending)
  | pending, entry :: entries =>
      if capacity ≤ pending.length + 1 then
        match hold capacity [] entries with
        | (released, kept) => (pending ++ entry :: released, kept)
      else hold capacity (pending ++ [entry]) entries

structure State (ε : Type) where
  delivered : List ε
  waiting : List (List ε)

def turn (capacity : Nat) (state : State ε) (addition : List ε) : State ε :=
  match state with
  | ⟨delivered, []⟩ => ⟨delivered, []⟩
  | ⟨delivered, pending :: others⟩ =>
      match hold capacity pending addition with
      | (released, kept) => ⟨delivered ++ released, others ++ [kept]⟩

def turns (capacity : Nat) (additions : List (List ε)) (state : State ε) : State ε :=
  additions.foldl (turn capacity) state

def start (concurrency : Nat) : State ε := ⟨[], List.replicate concurrency []⟩

def State.drained (state : State ε) : List ε := state.delivered ++ state.waiting.flatten

def arrivals (capacity concurrency : Nat) (additions : List (List ε)) : List ε :=
  (turns capacity additions (start concurrency)).drained

theorem holdAppend (capacity : Nat) (pending entries : List ε) :
    (hold capacity pending entries).1 ++ (hold capacity pending entries).2 = pending ++ entries := by
  induction entries generalizing pending with
  | nil => simp [hold]
  | cons entry entries ih =>
    rw [hold]
    split
    · simp [ih]
    · simp [ih]

theorem holdMap (f : ε → δ) (capacity : Nat) (pending entries : List ε) :
    hold capacity (pending.map f) (entries.map f) =
      ((hold capacity pending entries).1.map f, (hold capacity pending entries).2.map f) := by
  induction entries generalizing pending with
  | nil => simp [hold]
  | cons entry entries ih =>
    have flushed := ih []
    have held := ih (pending ++ [entry])
    simp only [List.map_nil, List.map_append, List.map_cons] at flushed held
    simp only [List.map_cons, hold, List.length_map, flushed, held]
    split <;> simp

def State.map (f : ε → δ) (state : State ε) : State δ :=
  ⟨state.delivered.map f, state.waiting.map (List.map f)⟩

theorem turnMap (f : ε → δ) (capacity : Nat) (state : State ε) (addition : List ε) :
    turn capacity (state.map f) (addition.map f) = (turn capacity state addition).map f := by
  obtain ⟨delivered, waiting⟩ := state
  cases waiting with
  | nil => rfl
  | cons pending others => simp [State.map, turn, holdMap]

theorem turnsMap (f : ε → δ) (capacity : Nat) (additions : List (List ε)) (state : State ε) :
    turns capacity (additions.map (List.map f)) (state.map f) =
      (turns capacity additions state).map f := by
  induction additions generalizing state with
  | nil => rfl
  | cons addition additions ih =>
    simp only [turns, List.map_cons, List.foldl_cons, turnMap] at ih ⊢
    exact ih _

theorem arrivalsMap (f : ε → δ) (capacity concurrency : Nat) (additions : List (List ε)) :
    arrivals capacity concurrency (additions.map (List.map f)) =
      (arrivals capacity concurrency additions).map f := by
  have fresh : (start concurrency : State ε).map f = start concurrency := by simp [State.map, start]
  rw [arrivals, ← fresh, turnsMap, arrivals, State.drained, State.drained, State.map,
    List.map_append, List.map_flatten]

theorem turnWaiting (capacity : Nat) (state : State ε) (addition : List ε) :
    (turn capacity state addition).waiting.length = state.waiting.length := by
  obtain ⟨delivered, waiting⟩ := state
  cases waiting <;> simp [turn]

theorem turnsWaiting (capacity : Nat) (additions : List (List ε)) (state : State ε) :
    (turns capacity additions state).waiting.length = state.waiting.length := by
  induction additions generalizing state with
  | nil => rfl
  | cons addition additions ih => exact (ih _).trans (turnWaiting capacity state addition)

theorem turnsSnoc (capacity : Nat) (additions : List (List ε)) (addition : List ε)
    (state : State ε) :
    turns capacity (additions ++ [addition]) state =
      turn capacity (turns capacity additions state) addition := by
  simp [turns]

theorem turnPerm (capacity : Nat) {state : State ε} (slots : 0 < state.waiting.length)
    (addition : List ε) :
    (turn capacity state addition).drained.Perm (state.drained ++ addition) := by
  obtain ⟨delivered, waiting⟩ := state
  cases waiting with
  | nil => simp at slots
  | cons pending others =>
    have whole := holdAppend capacity pending addition
    have swapped : ((hold capacity pending addition).1 ++
        (others.flatten ++ (hold capacity pending addition).2)).Perm
        ((hold capacity pending addition).1 ++
          ((hold capacity pending addition).2 ++ others.flatten)) :=
      List.Perm.append_left _ List.perm_append_comm
    rw [← List.append_assoc _ (hold capacity pending addition).2, whole, List.append_assoc]
      at swapped
    simp only [turn, State.drained, List.flatten_append, List.flatten_cons, List.flatten_nil,
      List.append_nil, List.append_assoc]
    exact (swapped.trans (List.Perm.append_left _ List.perm_append_comm)).append_left delivered

theorem turnsPerm (capacity : Nat) {state : State ε} (slots : 0 < state.waiting.length)
    (additions : List (List ε)) :
    (turns capacity additions state).drained.Perm (state.drained ++ additions.flatten) := by
  induction additions generalizing state with
  | nil => simp [turns]
  | cons addition additions ih =>
    have still : 0 < (turn capacity state addition).waiting.length := by rwa [turnWaiting]
    have rest := ih still
    rw [turns, List.foldl_cons, List.flatten_cons, ← List.append_assoc]
    exact rest.trans ((turnPerm capacity slots addition).append_right _)

theorem startDrained (concurrency : Nat) : (start concurrency : State ε).drained = [] := by
  simp [start, State.drained]

theorem arrivalsPerm (capacity : Nat) {concurrency : Nat} (slots : 0 < concurrency)
    (additions : List (List ε)) :
    (arrivals capacity concurrency additions).Perm additions.flatten := by
  have some : 0 < (start concurrency : State ε).waiting.length := by simpa [start] using slots
  have all := turnsPerm capacity some additions
  rwa [startDrained, List.nil_append] at all

section InOrder

theorem arrivalsAlone (capacity : Nat) (additions : List (List ε)) :
    arrivals capacity 1 additions = additions.flatten := by
  have step : ∀ (state : State ε), state.waiting.length = 1 →
      (turns capacity additions state).drained = state.drained ++ additions.flatten := by
    induction additions with
    | nil => simp [turns]
    | cons addition additions ih =>
      intro state one
      have still : (turn capacity state addition).waiting.length = 1 := by rwa [turnWaiting]
      obtain ⟨delivered, waiting⟩ := state
      obtain ⟨pending, rfl⟩ := List.length_eq_one_iff.mp one
      have whole := holdAppend capacity pending addition
      have rest := ih _ still
      simp only [turns, List.foldl_cons] at rest ⊢
      rw [rest]
      simp only [turn, State.drained, List.nil_append, List.flatten_cons, List.flatten_nil,
        List.append_nil, List.append_assoc]
      rw [← List.append_assoc (hold capacity pending addition).1, whole]
      simp
  have all := step (start 1) rfl
  rwa [startDrained, List.nil_append] at all

theorem holdOne (entries : List ε) : hold 1 [] entries = (entries, []) := by
  induction entries with
  | nil => rfl
  | cons entry entries ih => simp [hold, ih]

theorem arrivalsUnbuffered {concurrency : Nat} (slots : 0 < concurrency)
    (additions : List (List ε)) : arrivals 1 concurrency additions = additions.flatten := by
  have step : ∀ delivered : List ε,
      turns 1 additions ⟨delivered, List.replicate concurrency []⟩ =
        ⟨delivered ++ additions.flatten, List.replicate concurrency []⟩ := by
    obtain ⟨others, rfl⟩ := Nat.exists_eq_add_one.mpr slots
    induction additions with
    | nil => simp [turns]
    | cons addition additions ih =>
      intro delivered
      have last : List.replicate others [] ++ [[]] = [] :: List.replicate others ([] : List ε) := by
        rw [← List.replicate_succ', List.replicate_succ]
      have here : turn 1 ⟨delivered, List.replicate (others + 1) []⟩ addition =
          ⟨delivered ++ addition, List.replicate (others + 1) []⟩ := by
        simp only [List.replicate_succ, turn, holdOne, last]
      have rest := ih (delivered ++ addition)
      simp only [turns, List.foldl_cons, here] at rest ⊢
      rw [rest, List.append_assoc, List.flatten_cons]
  rw [arrivals, start, step, State.drained]
  simp

end InOrder

section Pairs
variable (f g : δ → ε)

def pair (x : δ) : List ε := [f x, g x]

theorem holdShort {capacity : Nat} {pending : List ε} (short : pending.length < capacity)
    (entries : List ε) : (hold capacity pending entries).2.length < capacity := by
  induction entries generalizing pending with
  | nil => simpa [hold] using short
  | cons entry entries ih =>
    rw [hold]
    split
    · exact ih (Nat.zero_lt_of_lt short)
    · rename_i room
      exact ih (by rw [List.length_append, List.length_singleton]; omega)

theorem holdPair {half : Nat} {pending : List δ} (short : pending.length < half) (x : δ) :
    hold (2 * half) (pending.flatMap (pair f g)) (pair f g x) =
      ((hold half pending [x]).1.flatMap (pair f g),
        (hold half pending [x]).2.flatMap (pair f g)) := by
  have length : (pending.flatMap (pair f g)).length = 2 * pending.length := by
    simp [List.length_flatMap, pair, Nat.mul_comm]
  have first : ¬ 2 * half ≤ 2 * pending.length + 1 := by omega
  by_cases full : half ≤ pending.length + 1
  · have second : 2 * half ≤ 2 * pending.length + 1 + 1 := by omega
    simp [pair, hold, length, first, second, full]
  · have second : ¬ 2 * half ≤ 2 * pending.length + 1 + 1 := by omega
    simp [pair, hold, length, first, second, full]

theorem turnsPairs {half : Nat} (xs : List δ) (delivered : List δ) (waiting : List (List δ))
    (short : ∀ pending ∈ waiting, pending.length < half) :
    turns (2 * half) (xs.map (pair f g))
        ⟨delivered.flatMap (pair f g), waiting.map (List.flatMap (pair f g))⟩ =
      ⟨(turns half (xs.map fun x => [x]) ⟨delivered, waiting⟩).delivered.flatMap (pair f g),
        (turns half (xs.map fun x => [x]) ⟨delivered, waiting⟩).waiting.map
          (List.flatMap (pair f g))⟩ := by
  induction xs generalizing delivered waiting with
  | nil => rfl
  | cons x xs ih =>
    cases waiting with
    | nil => exact ih delivered [] short
    | cons pending others =>
      have first := short pending (by simp)
      have still : ∀ other ∈ others ++ [(hold half pending [x]).2], other.length < half := by
        intro other member
        rcases List.mem_append.mp member with inside | last
        · exact short other (List.mem_cons_of_mem _ inside)
        · obtain rfl := List.mem_singleton.mp last
          exact holdShort first [x]
      have rest := ih (delivered ++ (hold half pending [x]).1) _ still
      simp only [List.flatMap_append, List.map_append, List.map_cons, List.map_nil] at rest
      simp only [turns, List.map_cons, List.foldl_cons, turn, holdPair f g first] at rest ⊢
      exact rest

theorem arrivalsPairs {half : Nat} (positive : 0 < half) (concurrency : Nat) (xs : List δ) :
    arrivals (2 * half) concurrency (xs.map (pair f g)) =
      (arrivals half concurrency (xs.map fun x => [x])).flatMap (pair f g) := by
  have fresh : ∀ pending ∈ List.replicate concurrency ([] : List δ), pending.length < half := by
    intro pending member
    rw [List.eq_of_mem_replicate member]
    exact positive
  have all := turnsPairs f g xs [] _ fresh
  simp only [List.flatMap_nil, List.map_replicate] at all
  rw [arrivals, arrivals, start, start, all, State.drained, State.drained, List.flatMap_append]
  simp only [List.flatMap_def, List.map_flatten, List.flatten_flatten, List.map_map]
  rfl

def Settled (capacity concurrency : Nat) : Prop :=
  concurrency = 1 ∨ capacity = 1 ∨ Even capacity

theorem arrivalsTogether {capacity concurrency : Nat} (settled : Settled capacity concurrency)
    (positive : 0 < capacity) (slots : 0 < concurrency) (xs : List δ) :
    ∃ ys : List δ, ys.Perm xs ∧
      arrivals capacity concurrency (xs.map (pair f g)) = ys.flatMap (pair f g) := by
  rcases settled with rfl | rfl | ⟨half, rfl⟩
  · exact ⟨xs, .refl _, arrivalsAlone _ _⟩
  · exact ⟨xs, .refl _, arrivalsUnbuffered slots _⟩
  · have some : 0 < half := by omega
    have single : (xs.map fun x => [x]).flatten = xs := by
      induction xs with
      | nil => rfl
      | cons x xs ih => simp [ih]
    have perm := arrivalsPerm half slots (xs.map fun x => [x])
    rw [single] at perm
    rw [← Nat.two_mul]
    exact ⟨_, perm, arrivalsPairs f g some concurrency xs⟩

end Pairs
end CommunityGraph.Schedule
