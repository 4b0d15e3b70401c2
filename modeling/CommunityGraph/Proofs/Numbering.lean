import Mathlib
import CommunityGraph.Renumber

/-! Numbers given by first appearance: equal labels get equal numbers, a new label gets the number of
labels before it, and nothing but the division into equal labels decides. -/
namespace CommunityGraph

def distinct (labels : List Nat) : Nat := labels.toFinset.card

/-- Each label is one of those before it, or else the number of different ones before it. -/
def Numbered (labels : List Nat) : Prop :=
  ∀ before label after, labels = before ++ label :: after →
    label ∈ before ∨ label = distinct before

structure Alike (xs ys : List Nat) : Prop where
  length : xs.length = ys.length
  same : ∀ i < xs.length, ∀ j < xs.length, xs[i]? = xs[j]? ↔ ys[i]? = ys[j]?

theorem distinctSnoc (labels : List Nat) (label : Nat) :
    distinct (labels ++ [label]) =
      if label ∈ labels then distinct labels else distinct labels + 1 := by
  have whole : (labels ++ [label]).toFinset = insert label labels.toFinset := by
    ext x
    simp
  rw [distinct, whole]
  split
  · rename_i member
    rw [Finset.insert_eq_self.mpr (List.mem_toFinset.mpr member), distinct]
  · rename_i fresh
    rw [Finset.card_insert_of_notMem (by simpa using fresh), distinct]

theorem distinctLe (labels : List Nat) : distinct labels ≤ labels.length :=
  labels.toFinset_card_le

theorem distinctPos {labels : List Nat} {label : Nat} (member : label ∈ labels) :
    0 < distinct labels :=
  Finset.card_pos.mpr ⟨label, List.mem_toFinset.mpr member⟩

theorem distinctMap {number : Nat → Nat} {labels : List Nat}
    (injective : ∀ x ∈ labels, ∀ y ∈ labels, number x = number y → x = y) :
    distinct (labels.map number) = distinct labels := by
  have image : (labels.map number).toFinset = labels.toFinset.image number := by
    ext x
    simp
  rw [distinct, image, Finset.card_image_of_injOn, distinct]
  intro x hx y hy same
  exact injective x (by simpa using hx) y (by simpa using hy) same

section Bound

theorem labelBoundSnoc (labels : List Nat) (label : Nat) :
    labelBound (labels ++ [label]) = max (labelBound labels) (label + 1) := by
  rw [labelBound, List.foldl_append]
  rfl

theorem ltLabelBound {labels : List Nat} {label : Nat} (member : label ∈ labels) :
    label < labelBound labels := by
  induction labels using List.reverseRecOn with
  | nil => cases member
  | append_singleton labels last ih =>
    rw [labelBoundSnoc]
    rcases List.mem_append.mp member with before | here
    · have := ih before
      omega
    · obtain rfl := List.mem_singleton.mp here
      omega

theorem Numbered.before {labels more : List Nat} (numbered : Numbered (labels ++ more)) :
    Numbered labels := by
  intro before label after split
  refine numbered before label (after ++ more) ?_
  rw [split, List.append_assoc, List.cons_append]

theorem Numbered.last {labels : List Nat} {label : Nat} (numbered : Numbered (labels ++ [label])) :
    label ∈ labels ∨ label = distinct labels :=
  numbered labels label [] rfl

theorem Numbered.bound {labels : List Nat} (numbered : Numbered labels) :
    labelBound labels = distinct labels := by
  induction labels using List.reverseRecOn with
  | nil => rfl
  | append_singleton labels label ih =>
    have bound := ih numbered.before
    rw [labelBoundSnoc, distinctSnoc]
    split
    · rename_i member
      have := ltLabelBound member
      omega
    · rename_i fresh
      have new := numbered.last.resolve_left fresh
      omega

theorem Numbered.covers {labels : List Nat} (numbered : Numbered labels) {number : Nat}
    (small : number < labelBound labels) : number ∈ labels := by
  induction labels using List.reverseRecOn with
  | nil => cases small
  | append_singleton labels label ih =>
    have bound := numbered.before.bound
    rw [labelBoundSnoc] at small
    rcases numbered.last with old | new
    · have := ltLabelBound old
      exact List.mem_append_left _ (ih numbered.before (by omega))
    · by_cases here : number = label
      · simp [here]
      · exact List.mem_append_left _ (ih numbered.before (by omega))

theorem idxOfLe {labels : List Nat} {node label : Nat} (found : labels[node]? = some label) :
    labels.idxOf label ≤ node := by
  induction labels generalizing node with
  | nil => cases found
  | cons first labels ih =>
    cases node with
    | zero =>
      obtain rfl : first = label := by simpa using found
      simp
    | succ node =>
      have := ih (by simpa using found)
      by_cases here : first = label
      · simp [here]
      · rw [List.idxOf_cons_ne _ here]
        omega

theorem Numbered.placeInside {labels : List Nat} (numbered : Numbered labels) {number : Nat}
    (small : number < labelBound labels) : labels.idxOf number < labels.length :=
  List.idxOf_lt_length_iff.mpr (numbered.covers small)

theorem Numbered.placesAscend {labels : List Nat} (numbered : Numbered labels) :
    ((List.range (labelBound labels)).map labels.idxOf).Pairwise (· < ·) := by
  refine List.pairwise_map.mpr (List.pairwise_lt_range.imp_of_mem ?_)
  intro first second _ member less
  have member := numbered.covers (List.mem_range.mp member)
  obtain ⟨before, after, split, fresh⟩ := List.eq_append_cons_of_mem member
  have place : labels.idxOf second = before.length := by
    rw [split, List.idxOf_append_of_notMem fresh]
    simp
  have new := (numbered before second after split).resolve_left fresh
  have front : Numbered before := Numbered.before (split ▸ numbered)
  have old := front.covers (by rw [front.bound]; omega : first < labelBound before)
  rw [place, split, List.idxOf_append_of_mem old]
  exact List.idxOf_lt_length_iff.mpr old

end Bound

section Alike
variable {xs ys zs : List Nat}

theorem Alike.refl (xs : List Nat) : Alike xs xs := ⟨rfl, fun _ _ _ _ => Iff.rfl⟩

theorem Alike.symm (alike : Alike xs ys) : Alike ys xs :=
  ⟨alike.length.symm, fun i hi j hj =>
    (alike.same i (alike.length ▸ hi) j (alike.length ▸ hj)).symm⟩

theorem Alike.trans (first : Alike xs ys) (second : Alike ys zs) : Alike xs zs :=
  ⟨first.length.trans second.length, fun i hi j hj =>
    (first.same i hi j hj).trans (second.same i (first.length ▸ hi) j (first.length ▸ hj))⟩

theorem alikeRange {n : Nat} {f g : Nat → Nat}
    (same : ∀ u < n, ∀ v < n, f u = f v ↔ g u = g v) :
    Alike ((List.range n).map f) ((List.range n).map g) := by
  refine ⟨by simp, fun i hi j hj => ?_⟩
  rw [List.length_map, List.length_range] at hi hj
  simpa [hi, hj] using same i hi j hj

theorem Alike.before {x y : Nat} (alike : Alike (xs ++ [x]) (ys ++ [y])) : Alike xs ys := by
  have length : xs.length = ys.length := by simpa using alike.length
  refine ⟨length, fun i hi j hj => ?_⟩
  have same := alike.same i (by simp; omega) j (by simp; omega)
  rwa [List.getElem?_append_left hi, List.getElem?_append_left hj,
    List.getElem?_append_left (length ▸ hi), List.getElem?_append_left (length ▸ hj)] at same

theorem Alike.last {x y : Nat} (alike : Alike (xs ++ [x]) (ys ++ [y])) {i : Nat}
    (hi : i < xs.length) : xs[i]? = some x ↔ ys[i]? = some y := by
  have length : xs.length = ys.length := by simpa using alike.length
  have same := alike.same i (by simp; omega) xs.length (by simp)
  have ends : (ys ++ [y])[xs.length]? = some y := by simp [length]
  rwa [ends, List.getElem?_concat_length, List.getElem?_append_left hi,
    List.getElem?_append_left (length ▸ hi)] at same

theorem Alike.seen {x y : Nat} (alike : Alike (xs ++ [x]) (ys ++ [y])) : x ∈ xs → y ∈ ys := by
  intro member
  obtain ⟨i, found⟩ := List.getElem?_of_mem member
  exact List.mem_of_getElem? ((alike.last (List.getElem?_eq_some_iff.mp found).1).mp found)

theorem Alike.snocs {x : Nat} (alike : Alike (xs ++ [x]) ys) :
    ∃ before y, ys = before ++ [y] := by
  have length := alike.length
  rcases List.eq_nil_or_concat ys with rfl | ⟨before, y, rfl⟩
  · simp at length
  · exact ⟨before, y, by simp⟩

theorem Alike.distinct (alike : Alike xs ys) : distinct xs = distinct ys := by
  induction xs using List.reverseRecOn generalizing ys with
  | nil =>
    obtain rfl := List.eq_nil_of_length_eq_zero alike.length.symm
    rfl
  | append_singleton xs x ih =>
    obtain ⟨before, y, rfl⟩ := alike.snocs
    have seen : x ∈ xs ↔ y ∈ before := ⟨alike.seen, alike.symm.seen⟩
    rw [distinctSnoc, distinctSnoc, ih alike.before, if_congr seen rfl rfl]

theorem Alike.numbered (alike : Alike xs ys) (first : Numbered xs) (second : Numbered ys) :
    xs = ys := by
  induction xs using List.reverseRecOn generalizing ys with
  | nil => exact (List.eq_nil_of_length_eq_zero alike.length.symm).symm
  | append_singleton xs x ih =>
    obtain ⟨before, y, rfl⟩ := alike.snocs
    obtain rfl := ih alike.before first.before second.before
    by_cases old : x ∈ xs
    · obtain ⟨i, found⟩ := List.getElem?_of_mem old
      have other := (alike.last (List.getElem?_eq_some_iff.mp found).1).mp found
      rw [Option.some.inj (found.symm.trans other)]
    · have fresh : y ∉ xs := fun member => old (alike.symm.seen member)
      rw [first.last.resolve_left old, second.last.resolve_left fresh]

end Alike

section Renumber

def firstPlace (labels : List Nat) (label : Nat) : Nat :=
  distinct (labels.takeWhile fun other => other ≠ label)

theorem firstPlaceFresh {before after : List Nat} {label : Nat} (fresh : label ∉ before) :
    firstPlace (before ++ label :: after) label = distinct before := by
  have all : ∀ other ∈ before, decide (other ≠ label) = true := by
    intro other member
    simpa using fun same : other = label => fresh (same ▸ member)
  rw [firstPlace, List.takeWhile_append_of_pos all]
  simp

theorem renumberFromPlaces {seen : Std.HashMap Nat Nat} {whole before : List Nat}
    (labels : List Nat) (split : whole = before ++ labels)
    (knows : ∀ label, seen[label]? = if label ∈ before then some (firstPlace whole label) else none)
    (size : seen.size = distinct before) :
    renumberFrom seen labels = labels.map (firstPlace whole) := by
  induction labels generalizing seen before with
  | nil => rfl
  | cons label labels ih =>
    have here := knows label
    rw [renumberFrom]
    by_cases old : label ∈ before
    · rw [if_pos old] at here
      have same : ∀ other, other ∈ before ++ [label] ↔ other ∈ before := by
        intro other
        simp only [List.mem_append, List.mem_singleton, or_iff_left_iff_imp]
        rintro rfl
        exact old
      have rest := @ih seen (before ++ [label]) (by simp [split])
        (fun other => by rw [knows, if_congr (same other) rfl rfl])
        (by rw [distinctSnoc, if_pos old, size])
      simp only [here, List.map_cons, rest]
    · rw [if_neg old] at here
      have number : firstPlace whole label = seen.size := by
        rw [split, firstPlaceFresh old, size]
      have fresh : label ∉ seen := by
        intro member
        rw [Std.HashMap.getElem?_eq_some_getElem member] at here
        cases here
      have rest := @ih (seen.insert label seen.size) (before ++ [label]) (by simp [split])
        (fun other => by
          rw [Std.HashMap.getElem?_insert, knows]
          by_cases equal : label = other
          · subst equal
            simp [number]
          · simp [equal, Ne.symm equal])
        (by rw [Std.HashMap.size_insert, if_neg fresh, distinctSnoc, if_neg old, size])
      simp only [here, List.map_cons, rest, number]

theorem renumberPlaces (labels : List Nat) :
    renumber labels = labels.map (firstPlace labels) :=
  @renumberFromPlaces ∅ labels [] labels rfl (by simp) rfl

theorem firstPlaceLess {before middle : List Nat} (after : List Nat) {first second : Nat}
    (fresh : second ∉ before ++ first :: middle) (new : first ∉ before) :
    firstPlace (before ++ first :: middle ++ second :: after) first <
      firstPlace (before ++ first :: middle ++ second :: after) second := by
  rw [firstPlaceFresh fresh, List.append_assoc, List.cons_append, firstPlaceFresh new]
  refine Finset.card_lt_card (Finset.ssubset_iff_subset_ne.mpr ⟨?_, fun same => ?_⟩)
  · intro x member
    simp only [List.mem_toFinset, List.mem_append] at member ⊢
    exact .inl member
  · have member : first ∈ (before ++ first :: middle).toFinset := by simp
    rw [← same] at member
    exact new (List.mem_toFinset.mp member)

theorem firstPlaceInjective {labels : List Nat} :
    ∀ x ∈ labels, ∀ y ∈ labels, firstPlace labels x = firstPlace labels y → x = y := by
  intro x hx y hy same
  by_contra apart
  obtain ⟨before, after, split, fresh⟩ := List.eq_append_cons_of_mem hx
  obtain ⟨before', after', split', fresh'⟩ := List.eq_append_cons_of_mem hy
  rcases List.append_eq_append_iff.mp (split.symm.trans split') with
    ⟨middle, rfl, rest⟩ | ⟨middle, rfl, rest⟩
  · cases middle with
    | nil => exact apart (List.cons.inj rest).1
    | cons head middle =>
      obtain ⟨rfl, rfl⟩ := List.cons.inj rest
      have less := firstPlaceLess after' fresh' fresh
      rw [← split'] at less
      omega
  · cases middle with
    | nil => exact apart (List.cons.inj rest).1.symm
    | cons head middle =>
      obtain ⟨rfl, rfl⟩ := List.cons.inj rest
      have less := firstPlaceLess after fresh fresh'
      rw [← split] at less
      omega

theorem renumberAlike (labels : List Nat) : Alike (renumber labels) labels := by
  rw [renumberPlaces]
  refine ⟨by simp, fun i hi j hj => ?_⟩
  rw [List.length_map] at hi hj
  have injective := firstPlaceInjective labels[i] (List.getElem_mem hi) labels[j]
    (List.getElem_mem hj)
  simp only [List.getElem?_map, List.getElem?_eq_getElem hi, List.getElem?_eq_getElem hj,
    Option.map_some, Option.some.injEq]
  exact ⟨injective, congrArg _⟩

theorem renumberNumbered (labels : List Nat) : Numbered (renumber labels) := by
  rw [renumberPlaces]
  intro before label after split
  obtain ⟨first, rest, whole, rfl, tail⟩ := List.map_eq_append_iff.mp split
  obtain ⟨here, others, rfl, rfl, rfl⟩ := List.map_eq_cons_iff.mp tail
  by_cases old : here ∈ first
  · exact .inl (List.mem_map_of_mem old)
  · refine .inr ?_
    rw [distinctMap, whole, firstPlaceFresh old]
    intro x hx y hy
    exact firstPlaceInjective x (by simp [whole, hx]) y (by simp [whole, hy])

theorem renumberLength (labels : List Nat) : (renumber labels).length = labels.length :=
  (renumberAlike labels).length

theorem renumberCongr {xs ys : List Nat} (alike : Alike xs ys) : renumber xs = renumber ys :=
  (((renumberAlike xs).trans alike).trans (renumberAlike ys).symm).numbered
    (renumberNumbered xs) (renumberNumbered ys)

theorem numberedRange (n : Nat) : Numbered (List.range n) := by
  intro before label after split
  have place : (List.range n)[before.length]? = some label := by
    rw [split, List.getElem?_append_right (Nat.le_refl _)]
    simp
  have small : before.length < n := by simpa using (List.getElem?_eq_some_iff.mp place).1
  have front : before = List.range before.length := by
    have taken := congrArg (List.take before.length) split
    rw [List.take_range, List.take_left] at taken
    rw [Nat.min_eq_left (Nat.le_of_lt small)] at taken
    exact taken.symm
  refine .inr ?_
  rw [List.getElem?_range small, Option.some.injEq] at place
  rw [distinct, front, List.toFinset_range, Finset.card_range, place]

theorem renumberRange (n : Nat) : renumber (List.range n) = List.range n :=
  (renumberAlike _).numbered (renumberNumbered _) (numberedRange n)

theorem renumberBound (labels : List Nat) : labelBound (renumber labels) = distinct labels := by
  rw [(renumberNumbered labels).bound, (renumberAlike labels).distinct]

end Renumber

section Canonical
variable {labels numbers : List Nat}

/-- Numbers in the place of labels: equal ones for equal labels, none left out, and each first met
behind all smaller ones. -/
structure Canonical (labels numbers : List Nat) : Prop where
  alike : Alike numbers labels
  dense : ∀ number, number ∈ numbers ↔ number < distinct labels
  ascends : ∀ first second, first < second → second < distinct labels →
    numbers.idxOf first < numbers.idxOf second

theorem Numbered.canonical (numbered : Numbered numbers) (alike : Alike numbers labels) :
    Canonical labels numbers := by
  have bound : labelBound numbers = distinct labels := numbered.bound.trans alike.distinct
  refine ⟨alike, fun number => ⟨fun member => ?_, fun small => ?_⟩, fun first second less small => ?_⟩
  · exact bound ▸ ltLabelBound member
  · exact numbered.covers (bound ▸ small)
  · have places := List.pairwise_iff_getElem.mp numbered.placesAscend
    rw [bound] at places
    have place := places first second (by simp; omega) (by simpa using small) less
    simpa using place

theorem Canonical.numbered (canonical : Canonical labels numbers) : Numbered numbers := by
  intro before label after split
  by_cases old : label ∈ before
  · exact .inl old
  · refine .inr ?_
    have small : label < distinct labels := (canonical.dense label).mp (by simp [split])
    have place : numbers.idxOf label = before.length := by
      rw [split, List.idxOf_append_of_notMem old]
      simp
    have smaller : before.toFinset = Finset.range label := by
      ext number
      rw [List.mem_toFinset, Finset.mem_range]
      constructor
      · intro member
        have earlier : numbers.idxOf number < before.length := by
          rw [split, List.idxOf_append_of_mem member]
          exact List.idxOf_lt_length_iff.mpr member
        have apart : number ≠ label := fun same => old (same ▸ member)
        have within : number < distinct labels :=
          (canonical.dense number).mp (by rw [split]; exact List.mem_append_left _ member)
        by_contra above
        have later := canonical.ascends label number (by omega) within
        omega
      · intro less
        have earlier := canonical.ascends number label less small
        rw [place, split] at earlier
        by_contra absent
        rw [List.idxOf_append_of_notMem absent] at earlier
        omega
    rw [distinct, smaller, Finset.card_range]

theorem renumberCanonical (labels : List Nat) : Canonical labels (renumber labels) :=
  (renumberNumbered labels).canonical (renumberAlike labels)

theorem renumberingCanonical (labels : List Nat) :
    (∀ numbers, numbers = renumber labels ↔ Canonical labels numbers) ∧
      renumber (renumber labels) = renumber labels ∧
        ∀ others, renumber others = renumber labels ↔ Alike others labels := by
  refine ⟨fun numbers => ⟨?_, fun canonical => ?_⟩, ?_, fun others => ⟨fun same => ?_, renumberCongr⟩⟩
  · rintro rfl
    exact renumberCanonical labels
  · have alike := canonical.alike.trans (renumberAlike labels).symm
    exact alike.numbered canonical.numbered (renumberNumbered labels)
  · exact renumberCongr (renumberAlike labels)
  · exact (same ▸ (renumberAlike others).symm).trans (renumberAlike labels)

end Canonical

section Classify

def membersOf (labels : List Nat) (label : Nat) : List Nat :=
  (List.range labels.length).filter fun node => labels[node]? = some label

theorem membersCons (first : Nat) (labels : List Nat) (label : Nat) :
    membersOf (first :: labels) label =
      (if first = label then [0] else []) ++ (membersOf labels label).map (· + 1) := by
  rw [membersOf, List.length_cons, List.range_succ_eq_map, List.filter_cons]
  simp only [List.getElem?_cons_zero, Option.some.injEq, decide_eq_true_eq, List.filter_map]
  split <;> simp [membersOf, Function.comp_def]

theorem classifyFromGet (classes : Array (Array Nat)) (position : Nat) (labels : List Nat)
    (label : Nat) :
    (classifyFrom classes position labels)[label]?.map Array.toList =
      classes[label]?.map fun members =>
        members.toList ++ (membersOf labels label).map (· + position) := by
  induction labels generalizing classes position with
  | nil => simp [classifyFrom, membersOf]
  | cons first labels ih =>
    rw [classifyFrom, ih, Array.getElem?_modify, membersCons]
    split <;> simp [Function.comp_def, Nat.add_comm, Nat.add_left_comm]

theorem classifyMembers (count : Nat) (labels : List Nat) :
    classify count labels = (List.range count).map (membersOf labels) := by
  apply List.ext_getElem?
  intro label
  have got := classifyFromGet (Array.replicate count #[]) 0 labels label
  rw [classify, List.getElem?_map, Array.getElem?_toList, got]
  by_cases small : label < count
  · simp [small]
  · simp [small]

theorem membersOfMem {labels : List Nat} {label node : Nat} :
    node ∈ membersOf labels label ↔ labels[node]? = some label := by
  rw [membersOf, List.mem_filter, List.mem_range, decide_eq_true_eq, and_iff_right_iff_imp]
  exact fun found => (List.getElem?_eq_some_iff.mp found).1

theorem classifyPerm {count : Nat} {labels : List Nat} (small : ∀ label ∈ labels, label < count) :
    (classify count labels).flatten.Perm (List.range labels.length) := by
  rw [classifyMembers, ← List.flatMap_def]
  refine (List.perm_ext_iff_of_nodup ?_ List.nodup_range).mpr fun node => ?_
  · refine List.nodup_flatMap.mpr ⟨fun label _ => List.nodup_range.filter _, ?_⟩
    refine List.pairwise_lt_range.imp fun {first second} less => ?_
    rintro node one other
    have same := (membersOfMem.mp one).symm.trans (membersOfMem.mp other)
    have := Option.some.inj same
    omega
  · simp only [List.mem_flatMap, List.mem_range, membersOfMem]
    constructor
    · rintro ⟨label, -, found⟩
      exact (List.getElem?_eq_some_iff.mp found).1
    · intro inside
      exact ⟨labels[node], small _ (List.getElem_mem inside), List.getElem?_eq_getElem inside⟩

end Classify
end CommunityGraph
