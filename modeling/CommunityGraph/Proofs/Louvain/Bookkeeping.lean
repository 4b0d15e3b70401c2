import CommunityGraph.Proofs.Coloring
import CommunityGraph.Proofs.Louvain.Gain

/-! What local moving keeps in order. A run is told beside all its passes over a class: totals stay those of
the communities, and no decision is out of date when it is applied, since no two nodes of a class are
neighbours. -/
namespace CommunityGraph.LocalMoving

section Labels
variable {α : Type} [Weight α] {degrees : Array α} {a : Assignment α} {decisions : Array Nat}
  {node : Nat}

theorem moveLabel (small : node < a.communities.size) :
    (move degrees decisions node a).2.label =
      Function.update a.label node (decisions.getD node 0) := by
  have own : a.communities.getD node 0 = a.label node := rfl
  unfold move
  dsimp only
  rw [own]
  split
  · rename_i same
    rw [same, Function.update_eq_self]
  · exact labelSet small _ _ a.totals

theorem moveSizes : (move degrees decisions node a).2.communities.size = a.communities.size ∧
    (move degrees decisions node a).2.totals.size = a.totals.size := by
  unfold move
  dsimp only
  split
  · exact ⟨rfl, rfl⟩
  · simp

theorem moveAllLabel {nodes : List Nat} (small : ∀ node ∈ nodes, node < a.communities.size)
    (moves target : Nat) : (moveAll degrees decisions nodes moves a).2.label target =
      if target ∈ nodes then decisions.getD target 0 else a.label target := by
  induction nodes generalizing a moves with
  | nil => rfl
  | cons node nodes ih =>
    have size : (move degrees decisions node a).2.communities.size = a.communities.size :=
      moveSizes.1
    have later : ∀ other ∈ nodes, other < (move degrees decisions node a).2.communities.size :=
      fun other member => size ▸ small other (List.mem_cons_of_mem _ member)
    rw [moveAll, ih later, moveLabel (small node (by simp)), Function.update_apply]
    by_cases again : target ∈ nodes
    · simp [again]
    · by_cases here : target = node
      · simp [here]
      · simp [again, here]

theorem moveAllCount (nodes : List Nat) (moves other : Nat) :
    (moveAll degrees decisions nodes moves a).2 = (moveAll degrees decisions nodes other a).2 := by
  induction nodes generalizing moves other a with
  | nil => rfl
  | cons node nodes ih => exact ih _ _

theorem moveAllCongr {other : Array Nat} {nodes : List Nat}
    (same : ∀ node ∈ nodes, decisions.getD node 0 = other.getD node 0) (moves : Nat) :
    moveAll degrees decisions nodes moves a = moveAll degrees other nodes moves a := by
  induction nodes generalizing moves a with
  | nil => rfl
  | cons node nodes ih =>
    have step : move degrees decisions node a = move degrees other node a := by
      unfold move
      rw [same node (by simp)]
    rw [moveAll, moveAll, step]
    exact ih (fun later member => same later (List.mem_cons_of_mem _ member)) _

end Labels

section Steps
variable {network : Network Rat} {degrees : Array Rat} {a : Assignment Rat} {decisions : Array Nat}
  {node : Nat}

theorem moveTotals (consistent : Consistent network degrees a) (small : node < network.nodeCount)
    {community : Nat} (within : community < network.nodeCount) :
    (move degrees decisions node a).2.totals[community]? =
      some (Modularity.labelTotal network.nodeCount
        (Function.update a.label node (decisions.getD node 0)) (fun node => degrees.getD node 0)
        community) := by
  have total := consistent.totals community within
  have own : a.communities.getD node 0 = a.label node := rfl
  have start : (Weight.zero : Rat) = 0 := rfl
  unfold move
  dsimp only
  rw [own, start]
  split
  · rename_i same
    rw [same, Function.update_eq_self]
    exact total
  · rw [Array.getElem?_modify, Array.getElem?_modify, total, Modularity.labelTotalMoved small]
    split <;> split <;> simp

theorem moveConsistent (consistent : Consistent network degrees a) (small : node < network.nodeCount)
    (within : decisions.getD node 0 < network.nodeCount) :
    Consistent network degrees (move degrees decisions node a).2 := by
  have label : (move degrees decisions node a).2.label =
      Function.update a.label node (decisions.getD node 0) :=
    moveLabel (consistent.size.symm ▸ small)
  refine ⟨moveSizes.1.trans consistent.size, fun other here => ?_,
    moveSizes.2.trans consistent.totalsSize, fun community here => ?_⟩
  · rw [label, Function.update_apply]
    split
    · exact within
    · exact consistent.small other here
  · rw [label]
    exact moveTotals consistent small here

theorem moveAllConsistent (consistent : Consistent network degrees a) {nodes : List Nat}
    (small : ∀ node ∈ nodes, node < network.nodeCount)
    (within : ∀ node ∈ nodes, decisions.getD node 0 < network.nodeCount) (moves : Nat) :
    Consistent network degrees (moveAll degrees decisions nodes moves a).2 := by
  have step : ∀ node ∈ nodes, ∀ a, Consistent network degrees a →
      Consistent network degrees (move degrees decisions node a).2 :=
    fun node member a consistent => moveConsistent consistent (small node member) (within node member)
  exact moveAllKeeps step moves consistent

theorem preferredSmall (consistent : Consistent network degrees a) (inside : network.Inside)
    (total : Rat) (small : node < network.nodeCount) :
    preferredCommunity network a degrees total node < network.nodeCount := by
  rcases preferredNear network a degrees total node with own | ⟨target, there, same⟩
  · exact own ▸ consistent.small node small
  · exact same ▸ consistent.small target (inside node target there)

end Steps

section Classes
variable {α : Type} [Weight α] {network : Network α}

theorem decideGet (a : Assignment α) (degrees : Array α) (total : α) (nodes : List Nat)
    (decisions : Array Nat) (node : Nat) :
    (decide network a degrees total nodes decisions).getD node 0 =
      if node ∈ nodes ∧ node < decisions.size then preferredCommunity network a degrees total node
      else decisions.getD node 0 := by
  induction nodes generalizing decisions with
  | nil => simp [decide]
  | cons first nodes ih =>
    rw [decide, ih, getDSet, Array.size_setIfInBounds]
    by_cases here : first = node
    · subst here
      by_cases sized : first < decisions.size <;> simp [sized]
    · simp [here, eq_comm (a := node)]

theorem decideSize (a : Assignment α) (degrees : Array α) (total : α) (nodes : List Nat)
    (decisions : Array Nat) :
    (decide network a degrees total nodes decisions).size = decisions.size := by
  induction nodes generalizing decisions with
  | nil => rfl
  | cons first nodes ih => rw [decide, ih, Array.size_setIfInBounds]

def Apart (network : Network α) (members : List Nat) : Prop :=
  ∀ node ∈ members, node < network.nodeCount ∧
    ∀ target ∈ network.targets node, target ≠ node → target ∉ members

omit [Weight α] in
theorem classesApart (mirrored : network.Mirrored) (coloring : Coloring) :
    ∀ members ∈ colorClasses (coloring.colors network), Apart network members := by
  intro members member node there
  refine ⟨colorsLength coloring network ▸ classInside member there,
    fun target joined apart also => ?_⟩
  have legal := Coloring.inOrderLegal (coloring.orderPerm network.nodeCount) mirrored joined apart
  rw [colorClasses, classifyMembers] at member
  obtain ⟨color, -, rfl⟩ := List.mem_map.mp member
  exact legal ((membersOfMem.mp there).trans (membersOfMem.mp also).symm)

end Classes

section Passes

structure Pass (α : Type) where
  members : List Nat
  before : Assignment α
  earlier : Array Nat
  decisions : Array Nat
  after : Assignment α

variable {α : Type} [Weight α]

def tracedSweep (s : Setting α) (t : Termination) :
    List (List Nat) → Nat → Assignment α → Array Nat → Journal →
      List (Pass α) × Except EngineError (Nat × Assignment α × Array Nat) × Journal
  | [], moves, a, decisions, j => ([], .ok (moves, a, decisions), j)
  | members :: classes, moves, a, decisions, j =>
      match passClass s members moves a decisions t j with
      | (.error e, j) => ([], .error e, j)
      | (.ok (moves, after, decided), j) =>
          match tracedSweep s t classes moves after decided j with
          | (passes, ended) => (⟨members, a, decisions, decided, after⟩ :: passes, ended)

def tracedSweeps (s : Setting α) (t : Termination) (classes : List (List Nat)) :
    Nat → Nat → Assignment α → Array Nat → Journal →
      List (Pass α) × Except EngineError (Assignment α) × Journal
  | 0, _, a, _, j => ([], .ok a, j)
  | left + 1, number, a, decisions, j =>
      match tracedSweep s t classes 0 a decisions j with
      | (passes, .error e, j) => (passes, .error e, j)
      | (passes, .ok (moves, a, decisions), j) =>
          let j := j.note (.log ⟨.debug, "local moving sweep",
            [("sweep", toString number), ("moves", toString moves),
              ("colors", toString classes.length)]⟩)
          if moves = 0 then (passes, .ok a, j)
          else
            match tracedSweeps s t classes left (number + 1) a decisions j with
            | (more, ended) => (passes ++ more, ended)

def traced (s : Setting α) (coloring : Coloring) (maxSweeps : Nat) (t : Termination) (j : Journal) :
    List (Pass α) × Except EngineError (Assignment α) × Journal :=
  tracedSweeps s t (colorClasses (coloring.colors s.network)) maxSweeps 0 (.singletons s.degrees)
    (Array.replicate s.network.nodeCount 0) j

theorem tracedSweepSame (s : Setting α) (t : Termination) (classes : List (List Nat)) (moves : Nat)
    (a : Assignment α) (decisions : Array Nat) (j : Journal) :
    (tracedSweep s t classes moves a decisions j).2 = sweep s classes moves a decisions t j := by
  induction classes generalizing moves a decisions j with
  | nil => rfl
  | cons members classes ih =>
    rw [tracedSweep, sweep, Run.bindApply]
    generalize passClass s members moves a decisions t j = answer
    obtain ⟨outcome, later⟩ := answer
    cases outcome with
    | error e => rfl
    | ok answer => exact ih _ _ _ _

theorem tracedSweepsSame (s : Setting α) (t : Termination) (classes : List (List Nat))
    (left number : Nat) (a : Assignment α) (decisions : Array Nat) (j : Journal) :
    (tracedSweeps s t classes left number a decisions j).2 =
      sweeps s classes left number a decisions t j := by
  induction left generalizing number a decisions j with
  | zero => rfl
  | succ left ih =>
    rw [tracedSweeps, sweeps, Run.bindApply, ← tracedSweepSame]
    generalize tracedSweep s t classes 0 a decisions j = answer
    obtain ⟨passes, outcome, later⟩ := answer
    cases outcome with
    | error e => rfl
    | ok answer =>
      obtain ⟨moves, after, decided⟩ := answer
      dsimp only
      by_cases still : moves = 0
      · simp only [if_pos still]
        rfl
      · simp only [if_neg still]
        exact ih _ _ _ _

theorem tracedSame (s : Setting α) (coloring : Coloring) (maxSweeps : Nat) (t : Termination)
    (j : Journal) : run s coloring maxSweeps t j =
      ((traced s coloring maxSweeps t j).2.1.map fun a => a.communities.toList,
        (traced s coloring maxSweeps t j).2.2) := by
  rw [run, Run.bindApply, traced, tracedSweepsSame]
  generalize sweeps s _ maxSweeps 0 _ _ t j = answer
  obtain ⟨outcome, later⟩ := answer
  cases outcome <;> rfl

inductive Chained : Assignment α → Array Nat → List (Pass α) → Assignment α → Array Nat → Prop where
  | nil (a : Assignment α) (decisions : Array Nat) : Chained a decisions [] a decisions
  | cons {pass : Pass α} {passes : List (Pass α)} {last : Assignment α} {decisions : Array Nat}
      (rest : Chained pass.after pass.decisions passes last decisions) :
      Chained pass.before pass.earlier (pass :: passes) last decisions

omit [Weight α] in
theorem Chained.append {a middle last : Assignment α} {earlier decisions later : Array Nat}
    {passes more : List (Pass α)} (first : Chained a earlier passes middle decisions)
    (second : Chained middle decisions more last later) :
    Chained a earlier (passes ++ more) last later := by
  induction first with
  | nil => exact second
  | cons _ ih => exact .cons (ih second)

end Passes

section Orderly
variable {s : Setting Rat} {classes : List (List Nat)} {a last : Assignment Rat}
  {earlier decisions : Array Nat} {passes : List (Pass Rat)}

structure Orderly (s : Setting Rat) (pass : Pass Rat) : Prop where
  before : Consistent s.network s.degrees pass.before
  after : Consistent s.network s.degrees pass.after
  decided : ∀ node ∈ pass.members, pass.decisions.getD node 0 =
    preferredCommunity s.network pass.before s.degrees s.total node
  renewed : ∀ (stale : Array Nat) (moves : Nat) (t : Termination) (j j' : Journal)
    (answer : Nat × Assignment Rat × Array Nat), stale.size = s.network.nodeCount →
    passClass s pass.members moves pass.before stale t j = (.ok answer, j') →
    answer.2.1 = pass.after ∧
      ∀ node ∈ pass.members, answer.2.2.getD node 0 = pass.decisions.getD node 0
  applied : pass.after = (moveAll s.degrees pass.decisions pass.members 0 pass.before).2
  moved : ∀ node, pass.after.label node =
    if node ∈ pass.members then preferredCommunity s.network pass.before s.degrees s.total node
    else pass.before.label node
  undisturbed : ∀ first node rest, pass.members = first ++ node :: rest →
    ∀ target ∈ s.network.targets node, target ≠ node →
      (moveAll s.degrees pass.decisions first 0 pass.before).2.label target =
        pass.before.label target

theorem passOrderly (inside : s.network.Inside) {members : List Nat}
    (apart : Apart s.network members) (consistent : Consistent s.network s.degrees a)
    (sized : earlier.size = s.network.nodeCount) {moves moved : Nat} {t : Termination}
    {j j' : Journal} {after : Assignment Rat}
    (ran : passClass s members moves a earlier t j = (.ok (moved, after, decisions), j')) :
    Orderly s ⟨members, a, earlier, decisions, after⟩ ∧ decisions.size = s.network.nodeCount := by
  -- the batches cover the class, so each member has decided, and from `a` alone
  have decides : ∀ stale : Array Nat, stale.size = s.network.nodeCount → ∀ node ∈ members,
      (decide s.network a s.degrees s.total members stale).getD node 0 =
        preferredCommunity s.network a s.degrees s.total node := by
    intro stale same node member
    rw [decideGet, if_pos ⟨member, same.symm ▸ (apart node member).1⟩]
  have answered := (passClassAnswers s members moves a earlier t).ok ran
  cases answered
  have within : ∀ node ∈ members, node < a.communities.size := fun node member =>
    consistent.size.symm ▸ (apart node member).1
  refine ⟨⟨consistent, ?_, decides earlier sized, ?_, moveAllCount _ _ _, fun node => ?_, ?_⟩,
    (decideSize _ _ _ _ _).trans sized⟩
  · refine moveAllConsistent consistent (fun node member => (apart node member).1)
      (fun node member => ?_) moves
    rw [decides earlier sized node member]
    exact preferredSmall consistent inside s.total (apart node member).1
  · intro stale moves' t' j j' answer same ran'
    have again := (passClassAnswers s members moves' a stale t').ok ran'
    subst again
    have alike : ∀ node ∈ members,
        (decide s.network a s.degrees s.total members stale).getD node 0 =
          (decide s.network a s.degrees s.total members earlier).getD node 0 := fun node member =>
      (decides stale same node member).trans (decides earlier sized node member).symm
    refine ⟨?_, alike⟩
    dsimp only
    rw [moveAllCongr alike, moveAllCount]
  · dsimp only
    rw [moveAllLabel within]
    split
    · rename_i member
      exact decides earlier sized node member
    · rfl
  · rintro first node rest rfl target joined distinct
    have waits : target ∉ first := fun already =>
      (apart node (by simp)).2 target joined distinct (List.mem_append_left _ already)
    rw [moveAllLabel fun other member => within other (List.mem_append_left _ member), if_neg waits]

structure Made (s : Setting Rat) (classes : List (List Nat)) (a : Assignment Rat)
    (earlier : Array Nat) (passes : List (Pass Rat)) (last : Assignment Rat)
    (decisions : Array Nat) : Prop where
  chained : Chained a earlier passes last decisions
  orderly : ∀ pass ∈ passes, pass.members ∈ classes ∧ Orderly s pass
  ends : Consistent s.network s.degrees last
  sized : decisions.size = s.network.nodeCount

theorem Made.nil (consistent : Consistent s.network s.degrees a)
    (sized : earlier.size = s.network.nodeCount) : Made s classes a earlier [] a earlier :=
  ⟨.nil a earlier, by simp, consistent, sized⟩

theorem Made.cons {pass : Pass Rat} (member : pass.members ∈ classes) (orderly : Orderly s pass)
    (made : Made s classes pass.after pass.decisions passes last decisions) :
    Made s classes pass.before pass.earlier (pass :: passes) last decisions :=
  ⟨.cons made.chained, List.forall_mem_cons.mpr ⟨⟨member, orderly⟩, made.orderly⟩, made.ends,
    made.sized⟩

theorem Made.append {more : List (Pass Rat)} {final : Assignment Rat} {later : Array Nat}
    (first : Made s classes a earlier passes last decisions)
    (second : Made s classes last decisions more final later) :
    Made s classes a earlier (passes ++ more) final later :=
  ⟨first.chained.append second.chained,
    fun pass member => (List.mem_append.mp member).elim (first.orderly pass) (second.orderly pass),
    second.ends, second.sized⟩

theorem sweepMade (inside : s.network.Inside) (apart : ∀ members ∈ classes, Apart s.network members)
    {left : List (List Nat)} (among : left ⊆ classes) (consistent : Consistent s.network s.degrees a)
    (sized : earlier.size = s.network.nodeCount) (moves : Nat) (t : Termination) (j : Journal) :
    ∃ last decisions,
      Made s classes a earlier (tracedSweep s t left moves a earlier j).1 last decisions ∧
      ∀ answer, (tracedSweep s t left moves a earlier j).2.1 = .ok answer →
        answer.2 = (last, decisions) := by
  -- over the classes still to come; what carries over is `Consistent` and the room for decisions
  induction left generalizing a earlier moves j with
  | nil =>
    refine ⟨a, earlier, .nil consistent sized, fun answer ended => ?_⟩
    cases ended
    rfl
  | cons members left ih =>
    obtain ⟨here, later⟩ := List.cons_subset.mp among
    rw [tracedSweep]
    cases ran : passClass s members moves a earlier t j with
    | mk outcome j' =>
      cases outcome with
      | error e => exact ⟨a, earlier, .nil consistent sized, fun answer ended => by cases ended⟩
      | ok answer =>
        obtain ⟨moved, after, decisions⟩ := answer
        obtain ⟨orderly, size⟩ := passOrderly inside (apart members here) consistent sized ran
        obtain ⟨last, final, made, ended⟩ := ih later orderly.after size moved j'
        exact ⟨last, final, .cons here orderly made, ended⟩

theorem sweepsMade (inside : s.network.Inside)
    (apart : ∀ members ∈ classes, Apart s.network members)
    (consistent : Consistent s.network s.degrees a) (sized : earlier.size = s.network.nodeCount)
    (left number : Nat) (t : Termination) (j : Journal) :
    ∃ last decisions,
      Made s classes a earlier (tracedSweeps s t classes left number a earlier j).1 last decisions ∧
      ∀ answer, (tracedSweeps s t classes left number a earlier j).2.1 = .ok answer →
        answer = last := by
  induction left generalizing number a earlier j with
  | zero =>
    refine ⟨a, earlier, .nil consistent sized, fun answer ended => ?_⟩
    cases ended
    rfl
  | succ left ih =>
    obtain ⟨last, decisions, made, ended⟩ :=
      sweepMade inside apart (List.Subset.refl classes) consistent sized 0 t j
    rw [tracedSweeps]
    generalize tracedSweep s t classes 0 a earlier j = swept at made ended
    obtain ⟨passes, outcome, later⟩ := swept
    cases outcome with
    | error e => exact ⟨last, decisions, made, fun answer ended => by cases ended⟩
    | ok answer =>
      obtain ⟨moves, after, decided⟩ := answer
      obtain ⟨rfl, rfl⟩ := Prod.mk.inj (ended _ rfl)
      dsimp only
      split
      · refine ⟨after, decided, made, fun answer ended => ?_⟩
        cases ended
        rfl
      · obtain ⟨final, decisions, more, finished⟩ := ih made.ends made.sized (number + 1) _
        exact ⟨final, decisions, made.append more, finished⟩

theorem singletonsConsistent (sized : s.degrees.size = s.network.nodeCount) :
    Consistent s.network s.degrees (.singletons s.degrees) := by
  have label : ∀ node < s.network.nodeCount,
      (Assignment.singletons s.degrees).label node = node := by
    intro node small
    simp [Assignment.label, Assignment.singletons, sized, small]
  refine ⟨by simp [Assignment.singletons, sized], fun node small => (label node small).symm ▸ small,
    sized, fun community within => ?_⟩
  have alone : Modularity.labelTotal s.network.nodeCount (Assignment.singletons s.degrees).label
      (fun node => s.degrees.getD node 0) community = s.degrees.getD community 0 := by
    rw [Modularity.labelTotal, Finset.sum_congr rfl fun node member => by
      rw [label node (Finset.mem_range.mp member)], Finset.sum_ite_eq',
      if_pos (Finset.mem_range.mpr within)]
  rw [alone]
  simp [Assignment.singletons, sized, within]

/-- However the nodes are colored and whenever the run is stopped, all its passes are orderly, from the
singletons that it starts with to the communities that it answers. -/
theorem passesOrderly (mirrored : s.network.Mirrored) (sized : s.degrees.size = s.network.nodeCount)
    (coloring : Coloring) (maxSweeps : Nat) (t : Termination) (j : Journal) :
    run s coloring maxSweeps t j =
      ((traced s coloring maxSweeps t j).2.1.map fun a => a.communities.toList,
        (traced s coloring maxSweeps t j).2.2) ∧
    Consistent s.network s.degrees (.singletons s.degrees) ∧
    ∃ last decisions, Made s (colorClasses (coloring.colors s.network)) (.singletons s.degrees)
        (Array.replicate s.network.nodeCount 0) (traced s coloring maxSweeps t j).1 last decisions ∧
      ∀ communities, (run s coloring maxSweeps t j).1 = .ok communities →
        communities = last.communities.toList := by
  have consistent := singletonsConsistent sized
  have same := tracedSame s coloring maxSweeps t j
  have room : (Array.replicate s.network.nodeCount 0).size = s.network.nodeCount :=
    Array.size_replicate
  obtain ⟨last, decisions, made, ended⟩ := sweepsMade mirrored.inside
    (classesApart mirrored coloring) consistent room maxSweeps 0 t j
  refine ⟨same, consistent, last, decisions, made, fun communities ran => ?_⟩
  rw [same] at ran
  cases outcome : (traced s coloring maxSweeps t j).2.1 with
  | error e => simp [outcome, Except.map] at ran
  | ok answer =>
    rw [outcome] at ran
    cases ran
    rw [ended answer outcome]

def sampleSetting : Setting Rat :=
  ⟨Network.sampleLine, Network.sampleLine.weightedDegrees, 19, 2, 1⟩

theorem sampleOrderly : sampleSetting.network.Mirrored ∧
    (run sampleSetting .greedy 3 .always .empty).1 = .ok [0, 1, 1, 1] ∧
    (traced sampleSetting .greedy 3 .always .empty).1.map Pass.members =
      [[0, 2], [1, 3], [0, 2], [1, 3]] ∧
    ∀ pass ∈ (traced sampleSetting .greedy 3 .always .empty).1, Orderly sampleSetting pass := by
  have mirrored : sampleSetting.network.Mirrored := Network.mirroredEdges (by decide)
  have sized : sampleSetting.degrees.size = sampleSetting.network.nodeCount := Array.size_map
  obtain ⟨-, -, last, decisions, made, -⟩ :=
    passesOrderly mirrored sized .greedy 3 .always .empty
  exact ⟨mirrored, by cbv, by cbv, fun pass member => (made.orderly pass member).2⟩

end Orderly
end CommunityGraph.LocalMoving
