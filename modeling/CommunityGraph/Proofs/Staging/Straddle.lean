import CommunityGraph.Proofs.Staging.Schedule

/-! When slots of odd capacity let go between the two entries of an addition. A later addition through
another slot then arrives after the one entry and before the other. -/
namespace CommunityGraph.Schedule
variable {ε δ : Type}

theorem turnsAppend (capacity : Nat) (xs ys : List (List ε)) (state : State ε) :
    turns capacity (xs ++ ys) state = turns capacity ys (turns capacity xs state) := by
  simp [turns]

theorem turnsCons (capacity : Nat) (addition : List ε) (additions : List (List ε))
    (state : State ε) :
    turns capacity (addition :: additions) state =
      turns capacity additions (turn capacity state addition) := rfl

theorem holdRoom {capacity : Nat} {pending entries : List ε}
    (room : pending.length + entries.length < capacity) :
    hold capacity pending entries = ([], pending ++ entries) := by
  induction entries generalizing pending with
  | nil => simp [hold]
  | cons entry entries ih =>
    rw [List.length_cons] at room
    rw [hold, if_neg (by omega), ih (by rw [List.length_append, List.length_singleton]; omega),
      List.append_assoc, List.singleton_append]

theorem turnsSweep (capacity : Nat) (addition : List ε) (delivered : List ε)
    (front back : List (List ε)) :
    turns capacity (List.replicate front.length addition) ⟨delivered, front ++ back⟩ =
      ⟨delivered ++ front.flatMap fun pending => (hold capacity pending addition).1,
        back ++ front.map fun pending => (hold capacity pending addition).2⟩ := by
  induction front generalizing delivered back with
  | nil => simp [turns]
  | cons pending front ih =>
    have rest := ih (delivered ++ (hold capacity pending addition).1)
      (back ++ [(hold capacity pending addition).2])
    rw [List.length_cons, List.replicate_succ, turnsCons, List.cons_append]
    simp only [turn, List.append_assoc] at rest ⊢
    rw [rest]
    simp

theorem turnsRounds {capacity : Nat} {addition : List ε} (delivered : List ε) (rounds : Nat)
    {waiting : List (List ε)}
    (room : ∀ pending ∈ waiting, pending.length + rounds * addition.length < capacity) :
    turns capacity (List.replicate (rounds * waiting.length) addition) ⟨delivered, waiting⟩ =
      ⟨delivered, waiting.map (· ++ (List.replicate rounds addition).flatten)⟩ := by
  induction rounds generalizing waiting with
  | zero => simp [turns]
  | succ rounds ih =>
    have here : ∀ pending ∈ waiting, hold capacity pending addition = ([], pending ++ addition) := by
      intro pending member
      have enough := room pending member
      rw [Nat.succ_mul] at enough
      exact holdRoom (by omega)
    have sweep := turnsSweep capacity addition delivered waiting []
    have none : (waiting.flatMap fun pending => (hold capacity pending addition).1) = [] := by
      rw [List.flatMap_eq_nil_iff]
      intro pending member
      rw [here pending member]
    have kept : (waiting.map fun pending => (hold capacity pending addition).2) =
        waiting.map (· ++ addition) :=
      List.map_congr_left fun pending member => by rw [here pending member]
    rw [none, kept, List.append_nil, List.append_nil, List.nil_append] at sweep
    have later : ∀ pending ∈ waiting.map (· ++ addition),
        pending.length + rounds * addition.length < capacity := by
      intro pending member
      obtain ⟨before, inside, rfl⟩ := List.mem_map.mp member
      have enough := room before inside
      rw [Nat.succ_mul] at enough
      rw [List.length_append]
      omega
    have rest := ih later
    rw [List.length_map] at rest
    rw [Nat.succ_mul, Nat.add_comm, List.replicate_add, turnsAppend, sweep, rest, List.map_map,
      List.replicate_succ, List.flatten_cons]
    simp [Function.comp_def]

theorem unsettledShape {capacity concurrency : Nat} (unsettled : ¬ Settled capacity concurrency)
    (positive : 0 < capacity) (slots : 0 < concurrency) :
    ∃ half others, 0 < others ∧ capacity = 2 * half + 3 ∧ concurrency = others + 1 := by
  simp only [Settled, not_or, Nat.even_iff] at unsettled
  exact ⟨(capacity - 3) / 2, concurrency - 1, by omega, by omega, by omega⟩

/-- Additions that bring all slots but one to a single entry held back, the last of them to the
second entry of `first`, and then let `second` complete what the next slot holds. -/
def straddle (half others : Nat) (filler first second : δ) : List δ :=
  List.replicate ((half + 1) * (others + 1)) filler ++ List.replicate others filler ++
    first :: (List.replicate (half * (others + 1)) filler ++ [second])

theorem straddleMap (g : δ → ε) (half others : Nat) (filler first second : δ) :
    (straddle half others filler first second).map g =
      straddle half others (g filler) (g first) (g second) := by
  simp [straddle]

section Straddle
variable {half others : Nat} {filler : ε}

def fillers (count : Nat) (filler : ε) : List ε := (List.replicate count [filler, filler]).flatten

theorem fillersLength (count : Nat) (filler : ε) : (fillers count filler).length = 2 * count := by
  simp [fillers, Nat.mul_comm]

theorem fillersFiltered {p : ε → Bool} (plain : p filler = false) (count : Nat) :
    (fillers count filler).filter p = [] := by
  rw [List.filter_eq_nil_iff]
  intro entry member
  simp only [fillers, List.mem_flatten, List.mem_replicate] at member
  obtain ⟨_, ⟨-, rfl⟩, inside⟩ := member
  simp only [List.mem_cons, List.not_mem_nil, or_false, or_self] at inside
  simp [inside, plain]

theorem holdSplit {capacity : Nat} {pending : List ε} (next : capacity = pending.length + 1)
    (small : 1 < capacity) (x y : ε) : hold capacity pending [x, y] = (pending ++ [x], [y]) := by
  have first : capacity ≤ pending.length + 1 := Nat.le_of_eq next
  have second : ¬ capacity ≤ 1 := Nat.not_le.mpr small
  simp [hold, first, second]

theorem holdWhole {capacity : Nat} {pending : List ε} (next : capacity = pending.length + 2)
    (x y : ε) : hold capacity pending [x, y] = (pending ++ [x, y], []) := by
  have first : ¬ capacity ≤ pending.length + 1 := by omega
  have second : capacity ≤ pending.length + 1 + 1 := Nat.le_of_eq next
  simp [hold, first, second]

theorem turnsFilled (half others : Nat) (filler : ε) :
    turns (2 * half + 3)
        (List.replicate ((half + 1) * (others + 1)) [filler, filler] ++
          List.replicate others [filler, filler])
        (start (others + 1)) =
      ⟨(List.replicate others (fillers (half + 1) filler ++ [filler])).flatten,
        fillers (half + 1) filler :: List.replicate others [filler]⟩ := by
  have fresh : ∀ pending ∈ List.replicate (others + 1) ([] : List ε),
      pending.length + (half + 1) * [filler, filler].length < 2 * half + 3 := by
    intro pending member
    rw [List.eq_of_mem_replicate member]
    simp only [List.length_nil, List.length_cons]
    omega
  have filled := turnsRounds [] (half + 1) fresh
  have split : hold (2 * half + 3) (fillers (half + 1) filler) [filler, filler] =
      (fillers (half + 1) filler ++ [filler], [filler]) :=
    holdSplit (by rw [fillersLength]; omega) (by omega) filler filler
  have sweep := turnsSweep (2 * half + 3) [filler, filler] []
    (List.replicate others (fillers (half + 1) filler)) [fillers (half + 1) filler]
  rw [List.length_replicate, List.map_replicate] at filled
  rw [List.length_replicate, ← List.replicate_succ', List.flatMap_replicate, List.map_replicate,
    split, List.nil_append, List.singleton_append] at sweep
  rw [turnsAppend, start, filled]
  exact sweep

theorem arrivalsStraddled {p : ε → Bool} (plain : p filler = false) (half : Nat)
    (several : 0 < others) (x x' y y' : ε) :
    (arrivals (2 * half + 3) (others + 1)
        (straddle half others [filler, filler] [x, x'] [y, y'])).filter p =
      [x, y, y', x'].filter p := by
  obtain ⟨rest, rfl⟩ := Nat.exists_eq_add_one.mpr several
  have split : hold (2 * half + 3) (fillers (half + 1) filler) [x, x'] =
      (fillers (half + 1) filler ++ [x], [x']) :=
    holdSplit (by rw [fillersLength]; omega) (by omega) x x'
  have whole : hold (2 * half + 3) (filler :: fillers half filler) [y, y'] =
      (filler :: fillers half filler ++ [y, y'], []) :=
    holdWhole (by rw [List.length_cons, fillersLength]) y y'
  have room : ∀ pending ∈ List.replicate (rest + 1) [filler] ++ [[x']],
      pending.length + half * [filler, filler].length < 2 * half + 3 := by
    intro pending member
    have one : pending.length = 1 := by
      rcases List.mem_append.mp member with inside | last
      · rw [List.eq_of_mem_replicate inside]
        rfl
      · rw [List.mem_singleton.mp last]
        rfl
    simp only [one, List.length_cons, List.length_nil]
    omega
  have held : ∀ delivered : List ε, turns (2 * half + 3)
      (List.replicate (half * (rest + 2)) [filler, filler])
      ⟨delivered, List.replicate (rest + 1) [filler] ++ [[x']]⟩ =
      ⟨delivered, (filler :: fillers half filler) ::
        (List.replicate rest (filler :: fillers half filler) ++ [x' :: fillers half filler])⟩ := by
    intro delivered
    have rounds := turnsRounds delivered half room
    rw [List.length_append, List.length_replicate, List.length_singleton, List.map_append,
      List.map_replicate] at rounds
    exact rounds
  rw [arrivals, straddle, turnsAppend, turnsFilled, turnsCons]
  simp only [turn, split]
  rw [turnsAppend, held]
  simp only [turns, List.foldl_cons, List.foldl_nil, turn, whole, State.drained]
  -- besides the two additions there are only fillers
  have none : ∀ count, ∀ pending : List ε, pending.filter p = [] →
      (List.replicate count pending).flatten.filter p = [] := by
    intro count pending empty
    simp [List.filter_flatten, empty]
  simp [plain, fillersFiltered plain, none, List.filter_cons]

end Straddle
end CommunityGraph.Schedule
