import Mathlib
import CommunityGraph.DisjointSet

/-! Disjoint sets seen through the root of each node. Questions leave all roots as they are, and a union
is a function of the roots alone: of both sets the smaller one is led to the root of the other. -/
namespace CommunityGraph.DisjointSet

def above (parents : Array Nat) (node : Nat) : Nat := parents.getD node node

inductive Leads (up : Nat → Nat) : Nat → Nat → Nat → Prop where
  | here {root : Nat} (top : up root = root) : Leads up root 0 root
  | step {node steps root : Nat} (below : up node ≠ node) (rest : Leads up (up node) steps root) :
      Leads up node (steps + 1) root

section Leads
variable {up : Nat → Nat} {node steps root : Nat}

theorem Leads.top (leads : Leads up node steps root) : up root = root := by
  induction leads with
  | here top => exact top
  | step _ _ ih => exact ih

theorem Leads.unique (leads : Leads up node steps root) {steps' root' : Nat}
    (other : Leads up node steps' root') : steps = steps' ∧ root = root' := by
  induction leads generalizing steps' with
  | here top =>
    cases other with
    | here => exact ⟨rfl, rfl⟩
    | step below => exact absurd top below
  | step below _ ih =>
    cases other with
    | here top => exact absurd top below
    | step _ rest =>
      obtain ⟨same, equal⟩ := ih rest
      exact ⟨congrArg _ same, equal⟩

theorem Leads.halved (leads : Leads up node steps root) (linked : Nat) :
    ∃ fewer ≤ steps, Leads (Function.update up linked (up (up linked))) node fewer root := by
  induction leads with
  | @here root top =>
    refine ⟨0, Nat.le_refl _, .here ?_⟩
    by_cases same : root = linked
    · subst same
      simp [top]
    · simp [same, top]
  | @step node steps root below rest ih =>
    obtain ⟨fewer, less, further⟩ := ih
    by_cases same : node = linked
    · subst same
      cases rest with
      | here top =>
        rw [top] at further ⊢
        exact ⟨fewer + 1, by omega, .step (by simp [below]) (by simpa using further)⟩
      | @step _ steps _ between rest =>
        have apart : up (up node) ≠ node := by
          intro cycle
          have again : Leads up node steps root := cycle ▸ rest
          have := (again.unique (.step below (.step between rest))).1
          omega
        have next : Function.update up node (up (up node)) (up node) = up (up node) := by
          simp [below]
        cases further with
        | here top => exact absurd (next.symm.trans top) between
        | step _ further =>
          rw [next] at further
          exact ⟨_, Nat.le_succ_of_le less, .step (by simp [apart]) (by simpa using further)⟩
    · have here : Function.update up linked (up (up linked)) node = up node := by simp [same]
      exact ⟨fewer + 1, by omega, .step (by rw [here]; exact below) (by rw [here]; exact further)⟩

theorem Leads.elsewhere (leads : Leads up node steps root) {child : Nat} (single : up child = child)
    (apart : root ≠ child) (top : Nat) : Leads (Function.update up child top) node steps root := by
  induction leads with
  | here fixed => exact .here (by simp [apart, fixed])
  | @step node _ _ below _ ih =>
    have other : node ≠ child := fun same => below (same ▸ single)
    have here : Function.update up child top node = up node := by simp [other]
    exact .step (by rw [here]; exact below) (by rw [here]; exact ih apart)

theorem Leads.joined (leads : Leads up node steps root) {top : Nat} (fixed : up top = top)
    (apart : top ≠ root) : Leads (Function.update up root top) node (steps + 1) top := by
  induction leads with
  | here _ => exact .step (by simp [apart]) (by simpa using .here (by simp [apart, fixed]))
  | @step node _ root below rest ih =>
    have other : node ≠ root := fun same => below (same ▸ rest.top)
    have here : Function.update up root top node = up node := by simp [other]
    exact .step (by rw [here]; exact below) (by rw [here]; exact ih apart)

end Leads

section Climb

def Shortens (up up' : Nat → Nat) : Prop :=
  ∀ node steps root, Leads up node steps root → ∃ fewer ≤ steps, Leads up' node fewer root

theorem Shortens.refl (up : Nat → Nat) : Shortens up up :=
  fun _ steps _ leads => ⟨steps, Nat.le_refl _, leads⟩

theorem Shortens.trans {first second third : Nat → Nat} (before : Shortens first second)
    (after : Shortens second third) : Shortens first third := by
  intro node steps root leads
  obtain ⟨fewer, less, leads⟩ := before _ _ _ leads
  obtain ⟨fewest, least, leads⟩ := after _ _ _ leads
  exact ⟨fewest, Nat.le_trans least less, leads⟩

theorem aboveSet {parents : Array Nat} {child : Nat} (inside : child < parents.size) (top : Nat) :
    above (parents.setIfInBounds child top) = Function.update (above parents) child top := by
  funext node
  by_cases same : node = child
  · subst same
    simp [above, inside]
  · simp [above, same, Ne.symm same]

theorem belowInside {parents : Array Nat} {node : Nat} (below : above parents node ≠ node) :
    node < parents.size := by
  by_contra outside
  exact below (by simp [above, Array.getElem?_eq_none (Nat.not_lt.mp outside)])

theorem climbTop {parents : Array Nat} {node : Nat} (top : above parents node = node)
    (fuel : Nat) : climb (fuel + 1) parents node = (node, parents) := if_pos top

theorem climbTurn {parents : Array Nat} {node : Nat} (below : above parents node ≠ node)
    (fuel : Nat) : climb (fuel + 1) parents node =
      climb fuel (parents.setIfInBounds node (above parents (above parents node)))
        (above parents (above parents node)) := if_neg below

theorem turnShortens {parents : Array Nat} {node : Nat} (below : above parents node ≠ node) :
    Shortens (above parents)
      (above (parents.setIfInBounds node (above parents (above parents node)))) := by
  rw [aboveSet (belowInside below)]
  exact fun _ _ _ leads => leads.halved node

theorem climbShortens (turns : Nat) (parents : Array Nat) (node : Nat) :
    Shortens (above parents) (above (climb turns parents node).2) := by
  induction turns generalizing parents node with
  | zero => exact Shortens.refl _
  | succ turns ih =>
    by_cases top : above parents node = node
    · rw [climbTop top]
      exact Shortens.refl _
    · rw [climbTurn top]
      exact (turnShortens top).trans (ih _ _)

theorem climbLeads {fuel steps root : Nat} {parents : Array Nat} {node : Nat}
    (leads : Leads (above parents) node steps root) (enough : steps ≤ fuel) :
    (climb fuel parents node).1 = root ∧ (climb fuel parents node).2.size = parents.size ∧
      Shortens (above parents) (above (climb fuel parents node).2) := by
  refine and_assoc.mp ⟨?_, climbShortens fuel parents node⟩
  induction fuel generalizing parents node steps with
  | zero =>
    obtain rfl := Nat.le_zero.mp enough
    cases leads
    exact ⟨rfl, rfl⟩
  | succ fuel ih =>
    cases leads with
    | here top =>
      rw [climbTop top]
      exact ⟨rfl, rfl⟩
    | @step _ steps _ below rest =>
      let further := above parents (above parents node)
      have short : ∃ fewer ≤ fuel, Leads (above parents) further fewer root := by
        cases rest with
        | here top =>
          exact ⟨0, Nat.zero_le _, by simpa [further, top] using Leads.here top⟩
        | step _ rest => exact ⟨_, by omega, rest⟩
      obtain ⟨fewer, less, leads⟩ := short
      obtain ⟨fewest, least, leads⟩ := turnShortens below _ _ _ leads
      obtain ⟨found, size⟩ := ih leads (Nat.le_trans least less)
      rw [climbTurn below]
      exact ⟨found, size.trans (Array.size_setIfInBounds ..)⟩

end Climb

section Roots
variable {n : Nat} {root : Nat → Nat}

def classSize (n : Nat) (root : Nat → Nat) (r : Nat) : Nat :=
  (List.range n).countP fun node => root node = r

def heirs (size : Nat → Nat) (rootA rootB : Nat) : Nat × Nat :=
  if size rootB < size rootA then (rootA, rootB)
  else if size rootA < size rootB then (rootB, rootA)
  else (min rootA rootB, max rootA rootB)

def redirect (root : Nat → Nat) (heirs : Nat × Nat) (node : Nat) : Nat :=
  if root node = heirs.2 then heirs.1 else root node

def joined (n : Nat) (root : Nat → Nat) (pair : Nat × Nat) : Nat → Nat :=
  redirect root (heirs (classSize n root) (root pair.1) (root pair.2))

theorem heirsCases (size : Nat → Nat) (rootA rootB : Nat) :
    heirs size rootA rootB = (rootA, rootB) ∨ heirs size rootA rootB = (rootB, rootA) := by
  unfold heirs
  split
  · exact .inl rfl
  · split
    · exact .inr rfl
    · rcases Nat.le_total rootA rootB with le | le
      · exact .inl (by rw [Nat.min_eq_left le, Nat.max_eq_right le])
      · exact .inr (by rw [Nat.min_eq_right le, Nat.max_eq_left le])

theorem heirsSmaller (size : Nat → Nat) (rootA rootB : Nat) :
    size (heirs size rootA rootB).2 ≤ size (heirs size rootA rootB).1 := by
  have cases := heirsCases size rootA rootB
  unfold heirs at cases ⊢
  split
  · rename_i less
    exact Nat.le_of_lt less
  · split
    · rename_i less
      exact Nat.le_of_lt less
    · rename_i notLess notGreater
      rw [if_neg notLess, if_neg notGreater] at cases
      rcases cases with same | same <;> rw [same] <;> dsimp only <;> omega

theorem heirsCongr {size size' : Nat → Nat} {rootA rootB : Nat} (first : size rootA = size' rootA)
    (second : size rootB = size' rootB) : heirs size rootA rootB = heirs size' rootA rootB := by
  simp only [heirs, first, second]

theorem linkHeirs (d : DisjointSet) (rootA rootB : Nat) :
    d.link rootA rootB =
      ⟨d.parents.setIfInBounds (heirs d.size rootA rootB).2 (heirs d.size rootA rootB).1,
        d.sizes.setIfInBounds (heirs d.size rootA rootB).1 (d.size rootA + d.size rootB)⟩ := rfl

theorem classSizeRedirect {top child : Nat} (apart : top ≠ child) (r : Nat) :
    classSize n (redirect root (top, child)) r =
      if r = child then 0
      else if r = top then classSize n root top + classSize n root child
      else classSize n root r := by
  simp only [classSize, List.countP_eq_length_filter]
  induction List.range n with
  | nil => simp
  | cons node nodes ih =>
    simp only [List.filter_cons, redirect] at ih ⊢
    grind

theorem classSizeLe (n : Nat) (root : Nat → Nat) (r : Nat) : classSize n root r ≤ n := by
  have := List.countP_le_length (p := fun node => decide (root node = r)) (l := List.range n)
  simpa [classSize] using this

end Roots

structure Represents (n : Nat) (root : Nat → Nat) (d : DisjointSet) : Prop where
  nodes : d.parents.size = n
  even : d.sizes.size = n
  inside : ∀ node < n, root node < n
  leads : ∀ node < n, ∃ steps, Leads (above d.parents) node steps (root node) ∧
    2 ^ steps ≤ classSize n root (root node)
  sizes : ∀ node < n, d.size (root node) = classSize n root (root node)

section Represents
variable {n : Nat} {root : Nat → Nat} {d : DisjointSet}

theorem makeRepresents (n : Nat) : Represents n id (make n) := by
  have one : ∀ node < n, classSize n id node = 1 := by
    intro node small
    have counted := List.count_eq_one_of_mem List.nodup_range (List.mem_range.mpr small)
    rw [List.count_eq_countP] at counted
    rw [classSize, ← counted]
    exact List.countP_congr fun other _ => by simp
  refine ⟨by simp [make], by simp [make], fun node small => small, fun node small => ?_,
    fun node small => ?_⟩
  · refine ⟨0, .here (by simp [above, make, small]), ?_⟩
    simpa using (one node small).ge
  · simp [DisjointSet.size, make, small, one]

theorem Represents.rootTop (represents : Represents n root d) {node : Nat} (inside : node < n) :
    above d.parents (root node) = root node := by
  obtain ⟨_, leads, -⟩ := represents.leads node inside
  exact leads.top

theorem Represents.rootRoot (represents : Represents n root d) {node : Nat} (inside : node < n) :
    root (root node) = root node := by
  obtain ⟨_, again, -⟩ := represents.leads _ (represents.inside node inside)
  exact (again.unique (.here (represents.rootTop inside))).2

theorem Represents.shortened (represents : Represents n root d) {parents : Array Nat}
    (size : parents.size = d.parents.size)
    (shortens : Shortens (above d.parents) (above parents)) :
    Represents n root ⟨parents, d.sizes⟩ where
  nodes := size.trans represents.nodes
  even := represents.even
  inside := represents.inside
  leads node inside := by
    obtain ⟨steps, leads, short⟩ := represents.leads node inside
    obtain ⟨fewer, less, leads⟩ := shortens _ _ _ leads
    exact ⟨fewer, leads, Nat.le_trans (Nat.pow_le_pow_right Nat.two_pos less) short⟩
  sizes := represents.sizes

theorem Represents.find (represents : Represents n root d) {node : Nat} (inside : node < n) :
    (d.find node).1 = root node ∧ Represents n root (d.find node).2 := by
  obtain ⟨steps, leads, short⟩ := represents.leads node inside
  have enough : steps ≤ d.parents.size := by
    have bound := classSizeLe n root (root node)
    have less : steps < 2 ^ steps := Nat.lt_two_pow_self
    rw [represents.nodes]
    omega
  obtain ⟨found, size, shortens⟩ := climbLeads leads enough
  have same : d.find node = ((climb d.parents.size d.parents node).1,
    ⟨(climb d.parents.size d.parents node).2, d.sizes⟩) := rfl
  rw [same]
  exact ⟨found, represents.shortened size shortens⟩

theorem sizeSet {sizes : Array Nat} {top : Nat} (inside : top < sizes.size) (parents : Array Nat)
    (value r : Nat) :
    DisjointSet.size ⟨parents, sizes.setIfInBounds top value⟩ r =
      if r = top then value else DisjointSet.size ⟨parents, sizes⟩ r := by
  by_cases same : r = top
  · subst same
    simp [DisjointSet.size, inside]
  · simp [DisjointSet.size, same, Ne.symm same]

theorem Represents.linked (represents : Represents n root d) {x y : Nat} (hx : x < n) (hy : y < n)
    (apart : root x ≠ root y)
    (smaller : classSize n root (root y) ≤ classSize n root (root x)) :
    Represents n (redirect root (root x, root y))
      ⟨d.parents.setIfInBounds (root y) (root x), d.sizes.setIfInBounds (root x)
        (classSize n root (root x) + classSize n root (root y))⟩ := by
  have topInside := represents.inside x hx
  have childInside := represents.inside y hy
  have sizeTop : classSize n (redirect root (root x, root y)) (root x) =
      classSize n root (root x) + classSize n root (root y) := by
    rw [classSizeRedirect apart, if_neg apart, if_pos rfl]
  have sizeOther : ∀ r, r ≠ root x → r ≠ root y →
      classSize n (redirect root (root x, root y)) r = classSize n root r := by
    intro r notTop notChild
    rw [classSizeRedirect apart, if_neg notChild, if_neg notTop]
  refine ⟨by simp [represents.nodes], by simp [represents.even], fun node inside => ?_,
    fun node inside => ?_, fun node inside => ?_⟩
  · unfold redirect
    split
    · exact topInside
    · exact represents.inside node inside
  · obtain ⟨steps, leads, short⟩ := represents.leads node inside
    rw [aboveSet (represents.nodes ▸ childInside)]
    by_cases child : root node = root y
    · rw [redirect, if_pos child, sizeTop]
      rw [child] at leads short
      refine ⟨steps + 1, leads.joined (represents.rootTop hx) apart, ?_⟩
      rw [Nat.pow_succ]
      omega
    · rw [redirect, if_neg child]
      refine ⟨steps, leads.elsewhere (represents.rootTop hy) child _, ?_⟩
      by_cases top : root node = root x
      · rw [top] at short ⊢
        rw [sizeTop]
        omega
      · rwa [sizeOther _ top child]
  · rw [sizeSet (represents.even ▸ topInside)]
    by_cases child : root node = root y
    · rw [redirect, if_pos child, if_pos rfl, sizeTop]
    · rw [redirect, if_neg child]
      split
      · rename_i top
        rw [top, sizeTop]
      · rename_i top
        rw [sizeOther _ top child]
        exact represents.sizes node inside

theorem Represents.link (represents : Represents n root d) {a b : Nat} (insideA : a < n)
    (insideB : b < n) (apart : root a ≠ root b) :
    Represents n (joined n root (a, b)) (d.link (root a) (root b)) := by
  have sizeA := represents.sizes a insideA
  have sizeB := represents.sizes b insideB
  have smaller := heirsSmaller (classSize n root) (root a) (root b)
  rw [linkHeirs, heirsCongr sizeA sizeB, sizeA, sizeB, joined]
  rcases heirsCases (classSize n root) (root a) (root b) with pair | pair <;> rw [pair] at smaller ⊢
  · exact represents.linked insideA insideB apart smaller
  · rw [Nat.add_comm]
    exact represents.linked insideB insideA apart.symm smaller

theorem joinedSelf {a b : Nat} (same : root a = root b) : joined n root (a, b) = root := by
  funext node
  rw [joined, ← same]
  rcases heirsCases (classSize n root) (root a) (root a) with pair | pair <;>
    · rw [pair, redirect]
      split
      · rename_i equal
        exact equal.symm
      · rfl

theorem Represents.union (represents : Represents n root d) {a b : Nat} (insideA : a < n)
    (insideB : b < n) :
    (d.union a b).1 = decide (root a ≠ root b) ∧
      Represents n (joined n root (a, b)) (d.union a b).2 := by
  obtain ⟨foundA, afterA⟩ := represents.find insideA
  unfold DisjointSet.union
  generalize d.find a = first at foundA afterA
  obtain ⟨rootA, d⟩ := first
  obtain ⟨foundB, afterB⟩ := afterA.find insideB
  dsimp only
  generalize d.find b = second at foundB afterB
  obtain ⟨rootB, d⟩ := second
  obtain rfl : rootA = root a := foundA
  obtain rfl : rootB = root b := foundB
  dsimp only
  by_cases same : root a = root b
  · rw [if_pos same, joinedSelf same]
    exact ⟨by simp [same], afterB⟩
  · rw [if_neg same]
    exact ⟨by simp [same], afterB.link insideA insideB same⟩

def Within (n : Nat) (pairs : List (Nat × Nat)) : Prop := ∀ pair ∈ pairs, pair.1 < n ∧ pair.2 < n

theorem Represents.unions {pairs : List (Nat × Nat)} (represents : Represents n root d)
    (within : Within n pairs) :
    Represents n (pairs.foldl (joined n) root) (d.unions pairs).2 := by
  induction pairs generalizing root d with
  | nil => exact represents
  | cons pair pairs ih =>
    obtain ⟨a, b⟩ := pair
    obtain ⟨insideA, insideB⟩ := within (a, b) (by simp)
    exact ih (represents.union insideA insideB).2 fun pair member =>
      within pair (List.mem_cons_of_mem _ member)

theorem Represents.roots {nodes : List Nat} (represents : Represents n root d)
    (inside : ∀ node ∈ nodes, node < n) :
    (d.roots nodes).1 = nodes.map root ∧ Represents n root (d.roots nodes).2 := by
  induction nodes generalizing d with
  | nil => exact ⟨rfl, represents⟩
  | cons node nodes ih =>
    obtain ⟨found, after⟩ := represents.find (inside node (by simp))
    obtain ⟨rest, last⟩ := ih after fun node member => inside node (List.mem_cons_of_mem _ member)
    exact ⟨by rw [List.map_cons, ← rest, ← found]; rfl, last⟩

theorem Represents.communities (represents : Represents n root d) :
    d.communities.1 = (List.range n).map root ∧ Represents n root d.communities.2 := by
  have length : d.length = n := represents.nodes
  rw [DisjointSet.communities, length]
  exact represents.roots fun node member => List.mem_range.mp member

end Represents

section Closure
variable {n : Nat} {root : Nat → Nat}

theorem joinedSame (a b x y : Nat) :
    joined n root (a, b) x = joined n root (a, b) y ↔
      root x = root y ∨ (root x = root a ∧ root y = root b) ∨
        (root x = root b ∧ root y = root a) := by
  rw [joined]
  rcases heirsCases (classSize n root) (root a) (root b) with pair | pair <;>
    · rw [pair]
      simp only [redirect]
      grind

theorem eqvGenLift {r r' : Nat → Nat → Prop} (lift : ∀ x y, r x y → Relation.EqvGen r' x y) {x y : Nat}
    (connected : Relation.EqvGen r x y) : Relation.EqvGen r' x y := by
  induction connected with
  | rel x y step => exact lift x y step
  | refl x => exact .refl x
  | symm _ _ _ ih => exact .symm _ _ ih
  | trans _ _ _ _ _ first second => exact .trans _ _ _ first second

theorem unionsSame (pairs : List (Nat × Nat)) (x y : Nat) :
    pairs.foldl (joined n) root x = pairs.foldl (joined n) root y ↔
      Relation.EqvGen (fun x y => root x = root y ∨ (x, y) ∈ pairs) x y := by
  induction pairs generalizing root with
  | nil =>
    simp only [List.foldl_nil, List.not_mem_nil, or_false]
    exact (Equivalence.eqvGen_iff (r := fun x y => root x = root y)
      ⟨fun _ => rfl, Eq.symm, Eq.trans⟩).symm
  | cons pair pairs ih =>
    obtain ⟨a, b⟩ := pair
    rw [List.foldl_cons, ih]
    have linked : Relation.EqvGen (fun x y => root x = root y ∨ (x, y) ∈ (a, b) :: pairs) a b :=
      .rel _ _ (.inr (by simp))
    have equal : ∀ {x y}, root x = root y →
        Relation.EqvGen (fun x y => root x = root y ∨ (x, y) ∈ (a, b) :: pairs) x y :=
      fun same => .rel _ _ (.inl same)
    constructor
    · refine eqvGenLift fun x y step => ?_
      rcases step with same | member
      · rcases (joinedSame a b x y).mp same with same | ⟨left, right⟩ | ⟨left, right⟩
        · exact equal same
        · exact .trans _ _ _ (equal left) (.trans _ _ _ linked (equal right.symm))
        · exact .trans _ _ _ (equal left) (.trans _ _ _ (.symm _ _ linked) (equal right.symm))
      · exact .rel _ _ (.inr (List.mem_cons_of_mem _ member))
    · refine eqvGenLift fun x y step => .rel _ _ ?_
      rcases step with same | member
      · exact .inl ((joinedSame a b x y).mpr (.inl same))
      · rcases List.mem_cons.mp member with here | later
        · cases here
          exact .inl ((joinedSame a b a b).mpr (.inr (.inl ⟨rfl, rfl⟩)))
        · exact .inr later

end Closure
end CommunityGraph.DisjointSet
