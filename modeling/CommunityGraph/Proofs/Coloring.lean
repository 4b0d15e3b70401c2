import Mathlib
import CommunityGraph.Coloring
import CommunityGraph.Proofs.Graph.Reading
import CommunityGraph.Proofs.Numbering

/-! Greedy colorings: no two adjacent nodes have the same color, and no color is greater than it has to
be, in whatever order the nodes are visited. A random order visits each node once, like the ascending one. -/
namespace CommunityGraph

section Order

theorem exchangePerm (xs : Array Nat) (i j : Nat) : (exchange xs i j).toList.Perm xs.toList := by
  unfold exchange Array.swapIfInBounds
  split
  · split
    · exact (Array.swap_perm _ _).toList
    · exact .refl _
  · exact .refl _

theorem shuffleFromPerm (i : Nat) (s : WordStream) (xs : Array Nat) :
    (shuffleFrom i s xs).toList.Perm xs.toList := by
  induction i generalizing s xs with
  | zero => exact .refl _
  | succ i ih =>
    rw [shuffleFrom]
    generalize WordStream.index (UInt32.ofNat (i + 2)) 1024 s = drawn
    obtain ⟨j, rest⟩ := drawn
    exact (ih rest _).trans (exchangePerm xs (i + 1) j)

theorem shuffledPerm (seed : UInt64) (n : Nat) : (shuffled seed n).Perm (List.range n) := by
  have shuffled := shuffleFromPerm (n - 1) (.ofSeed seed) (Array.range n)
  rwa [Array.toList_range] at shuffled

theorem Coloring.orderPerm (c : Coloring) (n : Nat) : (c.order n).Perm (List.range n) := by
  cases c with
  | greedy => exact .refl _
  | randomOrder seed => exact shuffledPerm seed n

end Order

theorem labelBoundReached {labels : List Nat} (some : 0 < labelBound labels) :
    ∃ label ∈ labels, labelBound labels = label + 1 := by
  induction labels using List.reverseRecOn with
  | nil => cases some
  | append_singleton labels last ih =>
    rw [labelBoundSnoc] at some ⊢
    rcases Nat.lt_or_ge (last + 1) (labelBound labels) with less | most
    · obtain ⟨label, member, bound⟩ := ih (by omega)
      exact ⟨label, List.mem_append_left _ member, by omega⟩
    · exact ⟨last, by simp, by omega⟩

namespace Coloring

section Least

structure Least (used : List Nat) (color : Nat) : Prop where
  free : color ∉ used
  below : ∀ smaller < color, smaller ∈ used

theorem Least.unique {used : List Nat} {color other : Nat} (least : Least used color)
    (least' : Least used other) : color = other := by
  rcases Nat.lt_trichotomy color other with less | same | greater
  · exact absurd (least'.below _ less) least.free
  · exact same
  · exact absurd (least.below _ greater) least'.free

theorem Least.few {used : List Nat} {color : Nat} (least : Least used color) :
    color ≤ used.toFinset.card := by
  have inside : Finset.range color ⊆ used.toFinset := fun smaller member =>
    List.mem_toFinset.mpr (least.below smaller (Finset.mem_range.mp member))
  simpa using Finset.card_le_card inside

theorem leastFreeTries (used : List Nat) (fuel color : Nat) :
    (∀ smaller, color ≤ smaller → smaller < leastFree used fuel color → smaller ∈ used) ∧
      (leastFree used fuel color ∉ used ∨ leastFree used fuel color = color + fuel) := by
  induction fuel generalizing color with
  | zero =>
    refine ⟨fun smaller from_ below => ?_, .inr rfl⟩
    rw [leastFree] at below
    omega
  | succ fuel ih =>
    rw [leastFree]
    split
    · rename_i taken
      obtain ⟨tried, ended⟩ := ih (color + 1)
      refine ⟨fun smaller from_ below => ?_, ended.imp_right fun last => by omega⟩
      rcases Nat.eq_or_lt_of_le from_ with rfl | later
      · exact taken
      · exact tried smaller later below
    · rename_i free
      exact ⟨fun smaller from_ below => by omega, .inl free⟩

theorem leastFreeLeast (used : List Nat) : Least used (leastFree used used.length 0) := by
  obtain ⟨tried, ended⟩ := leastFreeTries used used.length 0
  have below : ∀ smaller < leastFree used used.length 0, smaller ∈ used :=
    fun smaller less => tried smaller (Nat.zero_le _) less
  refine ⟨fun taken => ?_, below⟩
  -- One number more than there are places in the list would have to be used.
  have last := ended.resolve_left (not_not.mpr taken)
  have all : List.range (used.length + 1) ⊆ used := by
    intro smaller member
    have small := List.mem_range.mp member
    rcases Nat.lt_or_ge smaller (leastFree used used.length 0) with less | greatest
    · exact below smaller less
    · obtain rfl : smaller = leastFree used used.length 0 := by omega
      exact taken
  have short := (List.subperm_of_subset List.nodup_range all).length_le
  rw [List.length_range] at short
  omega

end Least

variable {α : Type} {network : Network α} {order before after : List Nat} {node : Nat}

def coloredBy (network : Network α) (order : List Nat) : Array (Option Nat) :=
  order.foldl (colorNode network) (Array.replicate network.nodeCount none)

section Visits

theorem coloredSnoc (network : Network α) (order : List Nat) (node : Nat) :
    coloredBy network (order ++ [node]) = colorNode network (coloredBy network order) node := by
  rw [coloredBy, List.foldl_append]
  rfl

theorem coloredSize (network : Network α) (order : List Nat) :
    (coloredBy network order).size = network.nodeCount := by
  induction order using List.reverseRecOn with
  | nil => simp [coloredBy]
  | append_singleton order node ih => simp [coloredSnoc, colorNode, ih]

theorem coloredAway (network : Network α) (order : List Nat) {later : List Nat} (away : node ∉ later) :
    (coloredBy network (order ++ later))[node]? = (coloredBy network order)[node]? := by
  induction later using List.reverseRecOn with
  | nil => rw [List.append_nil]
  | append_singleton later last ih =>
    obtain ⟨before, apart⟩ : node ∉ later ∧ node ≠ last := by simpa using away
    rw [← List.append_assoc, coloredSnoc, colorNode,
      Array.getElem?_setIfInBounds_ne (Ne.symm apart), ih before]

theorem coloredNever (never : node ∉ order) : (coloredBy network order)[node]?.join = none := by
  have away := coloredAway network [] never
  rw [List.nil_append] at away
  rw [away, coloredBy, List.foldl_nil, Array.getElem?_replicate]
  split <;> rfl

theorem coloredVisit (once : (before ++ node :: after).Nodup) (small : node < network.nodeCount) :
    ∃ color, (coloredBy network (before ++ node :: after))[node]? = some (some color) ∧
      Least (usedColors network (coloredBy network before) node) color := by
  have later : node ∉ after := (List.nodup_cons.mp (List.nodup_append.mp once).2.1).1
  rw [List.append_cons, coloredAway network _ later, coloredSnoc]
  refine ⟨_, ?_, leastFreeLeast _⟩
  rw [colorNode, Array.getElem?_setIfInBounds_self_of_lt (by rwa [coloredSize])]

theorem coloredGet (visits : order.Perm (List.range network.nodeCount)) (node : Nat) :
    (coloredBy network order)[node]? = ((inOrder network order)[node]?).map some := by
  rw [inOrder, ← coloredBy, List.getElem?_map, Array.getElem?_toList]
  by_cases small : node < network.nodeCount
  · have member : node ∈ order := visits.mem_iff.mpr (List.mem_range.mpr small)
    obtain ⟨before, after, rfl⟩ := List.append_of_mem member
    obtain ⟨color, here, -⟩ := coloredVisit (visits.nodup_iff.mpr List.nodup_range) small
    simp [here]
  · have outside : (coloredBy network order)[node]? = none := by
      simpa [coloredSize] using small
    simp [outside]

def earlierColors (network : Network α) (colors before : List Nat) (node : Nat) : List Nat :=
  (network.targets node).filterMap fun target =>
    if target ≠ node ∧ target ∈ before then colors[target]? else none

theorem usedEarlier (visits : (before ++ node :: after).Perm (List.range network.nodeCount)) :
    usedColors network (coloredBy network before) node =
      earlierColors network (inOrder network (before ++ node :: after)) before node := by
  have once := visits.nodup_iff.mpr List.nodup_range
  refine List.filterMap_congr fun target _ => ?_
  by_cases same : target = node
  · simp [same]
  · by_cases visited : target ∈ before
    · have later : target ∉ node :: after := fun again =>
        (List.nodup_append.mp once).2.2 target visited target again rfl
      have kept := coloredAway network before later
      rw [if_neg same, if_pos ⟨same, visited⟩, ← kept, coloredGet visits]
      cases (inOrder network (before ++ node :: after))[target]? <;> rfl
    · rw [if_neg same, coloredNever visited, if_neg fun both => visited both.2]

theorem inOrderLeast (visits : (before ++ node :: after).Perm (List.range network.nodeCount)) :
    ∃ color, (inOrder network (before ++ node :: after))[node]? = some color ∧
      Least (earlierColors network (inOrder network (before ++ node :: after)) before node) color := by
  have small : node < network.nodeCount :=
    List.mem_range.mp (visits.mem_iff.mp (List.mem_append_right _ (List.mem_cons_self ..)))
  obtain ⟨color, here, least⟩ :=
    coloredVisit (visits.nodup_iff.mpr List.nodup_range) small
  rw [coloredGet visits, Option.map_eq_some_iff] at here
  obtain ⟨_, here, same⟩ := here
  cases same
  exact ⟨color, here, usedEarlier visits ▸ least⟩

theorem memEarlier {colors : List Nat} {color : Nat} :
    color ∈ earlierColors network colors before node ↔ ∃ target ∈ network.targets node,
      (target ≠ node ∧ target ∈ before) ∧ colors[target]? = some color := by
  simp only [earlierColors, List.mem_filterMap, Option.ite_none_right_eq_some]

end Visits

section Properties

theorem seenApart (visits : (before ++ node :: after).Perm (List.range network.nodeCount))
    {target : Nat} (joined : target ∈ network.targets node) (apart : target ≠ node)
    (seen : target ∈ before) :
    (inOrder network (before ++ node :: after))[node]? ≠
      (inOrder network (before ++ node :: after))[target]? := by
  obtain ⟨color, here, least⟩ := inOrderLeast visits
  intro same
  exact least.free (memEarlier.mpr ⟨target, joined, ⟨apart, seen⟩, same ▸ here⟩)

theorem inOrderLegal (visits : order.Perm (List.range network.nodeCount))
    (mirrored : network.Mirrored) {target : Nat} (joined : target ∈ network.targets node)
    (apart : target ≠ node) :
    (inOrder network order)[node]? ≠ (inOrder network order)[target]? := by
  have back := mirrored node target joined
  have here : node ∈ order := visits.mem_iff.mpr (List.mem_range.mpr (Network.sourceInside joined))
  have there : target ∈ order := visits.mem_iff.mpr (List.mem_range.mpr (Network.sourceInside back))
  obtain ⟨before, after, rfl⟩ := List.append_of_mem here
  rcases List.mem_append.mp there with earlier | later
  · exact seenApart visits joined apart earlier
  · have behind := (List.mem_cons.mp later).resolve_left apart
    obtain ⟨middle, rest, rfl⟩ := List.append_of_mem behind
    rw [← List.cons_append, ← List.append_assoc] at visits ⊢
    have seen : node ∈ before ++ node :: middle := by simp
    exact (seenApart visits back (Ne.symm apart) seen).symm

theorem inOrderLength (network : Network α) (order : List Nat) :
    (inOrder network order).length = network.nodeCount := by
  rw [inOrder, ← coloredBy, List.length_map, Array.length_toList, coloredSize]

theorem inOrderVisit (visits : order.Perm (List.range network.nodeCount))
    {color : Nat} (member : color ∈ inOrder network order) :
    ∃ before node after, order = before ++ node :: after ∧ node < network.nodeCount ∧
      (inOrder network order)[node]? = some color ∧
      Least (earlierColors network (inOrder network order) before node) color := by
  obtain ⟨node, found⟩ := List.getElem?_of_mem member
  have small : node < network.nodeCount :=
    inOrderLength network order ▸ (List.getElem?_eq_some_iff.mp found).1
  obtain ⟨before, after, rfl⟩ :=
    List.append_of_mem (visits.mem_iff.mpr (List.mem_range.mpr small))
  obtain ⟨other, here, least⟩ := inOrderLeast visits
  obtain rfl : other = color := Option.some.inj (here.symm.trans found)
  exact ⟨before, node, after, rfl, small, found, least⟩

theorem colorCount (colors : List Nat) : (colorClasses colors).length = labelBound colors := by
  rw [colorClasses, classifyMembers, List.length_map, List.length_range]

theorem inOrderDense (visits : order.Perm (List.range network.nodeCount)) {color : Nat}
    (small : color < labelBound (inOrder network order)) : color ∈ inOrder network order := by
  obtain ⟨greatest, member, bound⟩ := labelBoundReached (Nat.zero_lt_of_lt small)
  rcases Nat.eq_or_lt_of_le (Nat.lt_succ_iff.mp (bound ▸ small)) with rfl | less
  · exact member
  · obtain ⟨before, node, after, -, -, -, least⟩ := inOrderVisit visits member
    obtain ⟨target, -, -, found⟩ := memEarlier.mp (least.below color less)
    exact List.mem_of_getElem? found

theorem earlierFew (network : Network α) (colors before : List Nat) (node : Nat) :
    (earlierColors network colors before node).toFinset.card ≤
      ((network.targets node).toFinset.erase node).card := by
  have image : (earlierColors network colors before node).toFinset ⊆
      ((network.targets node).toFinset.erase node).image fun target => colors.getD target 0 := by
    intro color member
    obtain ⟨target, joined, ⟨apart, -⟩, found⟩ := memEarlier.mp (List.mem_toFinset.mp member)
    refine Finset.mem_image.mpr ⟨target, by simp [joined, apart], ?_⟩
    simp [found]
  exact (Finset.card_le_card image).trans Finset.card_image_le

theorem inOrderFew (visits : order.Perm (List.range network.nodeCount)) :
    labelBound (inOrder network order) ≤ 1 + (Finset.range network.nodeCount).sup fun node =>
      ((network.targets node).toFinset.erase node).card := by
  rcases Nat.eq_zero_or_pos (labelBound (inOrder network order)) with none | some
  · omega
  · obtain ⟨greatest, member, bound⟩ := labelBoundReached some
    obtain ⟨before, node, after, -, small, -, least⟩ := inOrderVisit visits member
    have most : ((network.targets node).toFinset.erase node).card ≤
        (Finset.range network.nodeCount).sup fun node =>
          ((network.targets node).toFinset.erase node).card :=
      Finset.le_sup (f := fun node => ((network.targets node).toFinset.erase node).card)
        (Finset.mem_range.mpr small)
    have few := least.few.trans (earlierFew network _ before node)
    omega

end Properties

/-! The same colors, found with one array of marks, which grows with the colors and is never cleared: a
color is taken when its mark is the number of the visit. -/

section Stamps

def unset : Nat := UInt64.size - 1

def mark (stamp : Nat) (taken : Array Nat) (color : Nat) : Array Nat :=
  (taken ++ Array.replicate (color + 1 - taken.size) unset).setIfInBounds color stamp

def markNeighbours (network : Network α) (colors : Array Nat) (stamp node : Nat)
    (taken : Array Nat) : Array Nat :=
  (network.targets node).foldl
    (fun taken target =>
      if target = node ∨ colors.getD target unset = unset then taken
      else mark stamp taken (colors.getD target unset)) taken

structure Stamped where
  stamp : Nat
  colors : Array Nat
  taken : Array Nat

def stampNode (network : Network α) (s : Stamped) (node : Nat) : Stamped :=
  let taken := markNeighbours network s.colors s.stamp node s.taken
  ⟨s.stamp + 1, s.colors.setIfInBounds node (taken.toList.findIdx fun mark => mark ≠ s.stamp), taken⟩

def stampedColors (network : Network α) (order : List Nat) : List Nat :=
  (order.foldl (stampNode network) ⟨0, Array.replicate network.nodeCount unset, #[]⟩).colors.toList

theorem markGet (stamp color index : Nat) (taken : Array Nat) :
    (mark stamp taken color)[index]? =
      if index = color then some stamp
      else taken[index]?.or (if index ≤ color then some unset else none) := by
  unfold mark
  by_cases here : index = color
  · subst here
    rw [if_pos rfl, Array.getElem?_setIfInBounds_self_of_lt (by simp; omega)]
  · rw [if_neg here, Array.getElem?_setIfInBounds_ne (Ne.symm here), Array.getElem?_append]
    split
    · rename_i inside
      simp [inside]
    · rename_i beyond
      have none : taken[index]? = none := Array.getElem?_eq_none (Nat.not_lt.mp beyond)
      rw [none, Option.none_or, Array.getElem?_replicate]
      exact if_congr (by omega) rfl rfl

theorem marksGet {stamp : Nat} (usual : stamp ≠ unset) (used : List Nat) (taken : Array Nat)
    (index : Nat) : (used.foldl (mark stamp) taken)[index]? = some stamp ↔
      index ∈ used ∨ taken[index]? = some stamp := by
  induction used generalizing taken with
  | nil => simp
  | cons color used ih =>
    have here : (mark stamp taken color)[index]? = some stamp ↔
        index = color ∨ taken[index]? = some stamp := by
      rw [markGet]
      split
      · simp [*]
      · rename_i elsewhere
        cases taken[index]? with
        | none =>
          rw [Option.none_or]
          split <;> simp [elsewhere, Ne.symm usual]
        | some old => simp [elsewhere]
    rw [List.foldl_cons, ih, here, List.mem_cons, or_assoc, or_left_comm]

theorem marksStale {stamp : Nat} (used : List Nat) (taken : Array Nat) {index old : Nat}
    (found : (used.foldl (mark stamp) taken)[index]? = some old) :
    old = stamp ∨ old = unset ∨ taken[index]? = some old := by
  induction used generalizing taken with
  | nil => exact .inr (.inr found)
  | cons color used ih =>
    rcases ih (mark stamp taken color) found with new | grown | before
    · exact .inl new
    · exact .inr (.inl grown)
    · rw [markGet] at before
      split at before
      · exact .inl (Option.some.inj before).symm
      · cases kept : taken[index]? with
        | none =>
          rw [kept, Option.none_or, Option.ite_none_right_eq_some] at before
          exact .inr (.inl (Option.some.inj before.2).symm)
        | some mark =>
          rw [kept, Option.some_or] at before
          exact .inr (.inr before)

theorem markUsed {colors : Array (Option Nat)} (stamp : Nat) (taken : Array Nat)
    (usual : ∀ (target color : Nat), colors[target]? = some (some color) → color ≠ unset) :
    markNeighbours network (colors.map fun color => color.getD unset) stamp node taken =
      (usedColors network colors node).foldl (mark stamp) taken := by
  rw [markNeighbours, usedColors, List.foldl_filterMap]
  refine congrArg (fun step => List.foldl step taken (network.targets node)) ?_
  funext taken target
  by_cases same : target = node
  · simp [same]
  · rw [if_neg same, Array.getD_eq_getD_getElem?, Array.getElem?_map]
    cases found : colors[target]? with
    | none => simp
    | some held =>
      cases held with
      | none => simp
      | some color => simp [same, usual target color found]

theorem usedHeld {colors : Array (Option Nat)} {color : Nat}
    (used : color ∈ usedColors network colors node) :
    ∃ target : Nat, colors[target]? = some (some color) := by
  obtain ⟨target, -, found⟩ := List.mem_filterMap.mp used
  exact ⟨target, Option.join_eq_some_iff.mp (Option.ite_none_left_eq_some.mp found).2⟩

theorem firstUnmarked {marks used : List Nat} {stamp : Nat}
    (same : ∀ index, marks[index]? = some stamp ↔ index ∈ used) :
    Least used (marks.findIdx fun mark => mark ≠ stamp) := by
  constructor
  · intro taken
    obtain ⟨inside, here⟩ := List.getElem?_eq_some_iff.mp ((same _).mpr taken)
    have other := List.findIdx_getElem (w := inside)
    exact of_decide_eq_true other here
  · intro smaller less
    have inside := Nat.lt_of_lt_of_le less List.findIdx_le_length
    have marked := List.not_of_lt_findIdx less
    refine (same smaller).mp ?_
    rw [List.getElem?_eq_getElem inside]
    simpa using marked

/-- All marks that are left from before are numbers of earlier visits. -/
structure Agrees (s : Stamped) (colors : Array (Option Nat)) : Prop where
  words : s.colors = colors.map fun color => color.getD unset
  small : ∀ (node color : Nat), colors[node]? = some (some color) → color < s.stamp
  stale : ∀ (index old : Nat), s.taken[index]? = some old → old < s.stamp ∨ old = unset

theorem Agrees.visit {s : Stamped} {colors : Array (Option Nat)} (agrees : Agrees s colors)
    (usual : s.stamp < unset) (node : Nat) :
    Agrees (stampNode network s node) (colorNode network colors node) := by
  obtain ⟨stamp, _, taken⟩ := s
  obtain ⟨rfl, small, stale⟩ := agrees
  dsimp only at usual small stale
  have marked : markNeighbours network (colors.map fun color => color.getD unset) stamp node taken =
      (usedColors network colors node).foldl (mark stamp) taken :=
    markUsed stamp taken fun target color found =>
      Nat.ne_of_lt (Nat.lt_trans (small target color found) usual)
  have least : Least (usedColors network colors node)
      (((usedColors network colors node).foldl (mark stamp) taken).toList.findIdx
        fun mark => mark ≠ stamp) := by
    refine firstUnmarked fun index => ?_
    rw [Array.getElem?_toList, marksGet (Nat.ne_of_lt usual)]
    refine or_iff_left fun found => ?_
    have := stale index stamp found
    omega
  have same := least.unique (leastFreeLeast _)
  unfold stampNode colorNode
  dsimp only
  rw [marked, same]
  refine ⟨?_, fun other color found => ?_, fun index old found => ?_⟩
  · apply Array.ext_getElem?
    intro index
    simp only [Array.getElem?_map, Array.getElem?_setIfInBounds, Array.size_map]
    split
    · split <;> rfl
    · rfl
  · dsimp only
    rw [Array.getElem?_setIfInBounds] at found
    split at found
    · obtain rfl : leastFree _ _ 0 = color := by
        split at found
        · exact Option.some.inj (Option.some.inj found)
        · cases found
      by_contra large
      obtain ⟨target, held⟩ :=
        usedHeld ((leastFreeLeast (usedColors network colors node)).below stamp (by omega))
      exact Nat.lt_irrefl _ (small target stamp held)
    · exact Nat.lt_succ_of_lt (small other color found)
  · dsimp only at found ⊢
    rcases marksStale _ _ found with rfl | rfl | before
    · exact .inl (Nat.lt_succ_self _)
    · exact .inr rfl
    · exact (stale index old before).imp_left Nat.lt_succ_of_lt

theorem stampedAgrees (network : Network α) {order : List Nat} (short : order.length ≤ unset) :
    ∃ s, order.foldl (stampNode network) ⟨0, Array.replicate network.nodeCount unset, #[]⟩ = s ∧
      s.stamp = order.length ∧ Agrees s (coloredBy network order) := by
  induction order using List.reverseRecOn with
  | nil =>
    refine ⟨_, rfl, rfl, by simp [coloredBy], fun node color found => ?_, by simp⟩
    simp [coloredBy, Array.getElem?_replicate] at found
  | append_singleton order node ih =>
    rw [List.length_append, List.length_singleton] at short
    obtain ⟨s, folded, stamp, agrees⟩ := ih (by omega)
    refine ⟨stampNode network s node, by rw [List.foldl_append, folded]; rfl, ?_, ?_⟩
    · rw [List.length_append, ← stamp]
      rfl
    · rw [coloredSnoc]
      exact agrees.visit (by omega) node

theorem stampedSame (visits : order.Perm (List.range network.nodeCount))
    (words : network.nodeCount < UInt64.size) :
    stampedColors network order = inOrder network order := by
  have length := visits.length_eq
  rw [List.length_range] at length
  have short : order.length ≤ unset := by
    unfold unset
    omega
  obtain ⟨s, folded, -, agrees⟩ := stampedAgrees network short
  rw [stampedColors, folded, agrees.words]
  apply List.ext_getElem?
  intro node
  rw [Array.getElem?_toList, Array.getElem?_map, coloredGet visits, Option.map_map]
  exact Option.map_id'

end Stamps

section Results

structure Greedy (network : Network α) (order colors : List Nat) : Prop where
  colored : (coloredBy network order).toList = colors.map some
  nodes : colors.length = network.nodeCount
  legal : ∀ node, ∀ target ∈ network.targets node, target ≠ node → colors[node]? ≠ colors[target]?
  least : ∀ before node after, order = before ++ node :: after →
    ∃ color, colors[node]? = some color ∧ Least (earlierColors network colors before node) color
  dense : ∀ color, color ∈ colors ↔ color < (colorClasses colors).length
  few : (colorClasses colors).length ≤ 1 + (Finset.range network.nodeCount).sup fun node =>
    ((network.targets node).toFinset.erase node).card
  stamped : network.nodeCount < UInt64.size → stampedColors network order = colors

theorem inOrderGreedy (visits : order.Perm (List.range network.nodeCount))
    (mirrored : network.Mirrored) : Greedy network order (inOrder network order) where
  colored := by
    apply List.ext_getElem?
    intro node
    rw [Array.getElem?_toList, coloredGet visits, List.getElem?_map]
  nodes := inOrderLength network order
  legal node target joined apart := inOrderLegal visits mirrored joined apart
  least before node after split := by
    subst split
    exact inOrderLeast visits
  dense color := by
    rw [colorCount]
    exact ⟨ltLabelBound, inOrderDense visits⟩
  few := by
    rw [colorCount]
    exact inOrderFew visits
  stamped words := stampedSame visits words

/-- Every order of the nodes gives a legal and tight coloring; ascending and seeded orders are such. -/
theorem coloringLegal (mirrored : network.Mirrored) :
    (∀ order, order.Perm (List.range network.nodeCount) →
      Greedy network order (inOrder network order)) ∧
    ∀ c : Coloring, (c.order network.nodeCount).Perm (List.range network.nodeCount) ∧
      Greedy network (c.order network.nodeCount) (c.colors network) :=
  ⟨fun _ visits => inOrderGreedy visits mirrored, fun c =>
    ⟨c.orderPerm _, inOrderGreedy (c.orderPerm _) mirrored⟩⟩

theorem sampleLegal : Network.sampleLine.Mirrored ∧
    [0, 3, 1, 2].Perm (List.range Network.sampleLine.nodeCount) ∧
    inOrder Network.sampleLine [0, 3, 1, 2] = [0, 1, 2, 0] ∧
    Greedy Network.sampleLine [0, 3, 1, 2] [0, 1, 2, 0] := by
  have mirrored : Network.sampleLine.Mirrored := Network.mirroredEdges (by decide)
  have visits : [0, 3, 1, 2].Perm (List.range Network.sampleLine.nodeCount) := by decide
  have colors : inOrder Network.sampleLine [0, 3, 1, 2] = [0, 1, 2, 0] := by decide
  exact ⟨mirrored, visits, colors, colors ▸ (coloringLegal mirrored).1 _ visits⟩

end Results
end Coloring
end CommunityGraph
