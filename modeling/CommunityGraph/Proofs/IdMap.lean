import Mathlib
import CommunityGraph.IdMap

/-! Tables of collected ids. Each id is listed once, in ascending order, and stands behind its place; so
only which ids were collected shows in the table. -/
namespace CommunityGraph.IdTable
variable {ids others : List Int} {id : Int}

theorem dedupMember : id ∈ dedupSorted ids ↔ id ∈ ids := by
  induction ids using dedupSorted.induct with
  | case1 => rfl
  | case2 a => rfl
  | case3 a rest ih =>
    rw [dedupSorted, if_pos rfl, ih]
    simp
  | case4 a b rest apart ih =>
    rw [dedupSorted, if_neg apart, List.mem_cons, ih, List.mem_cons (a := id) (b := a)]

theorem dedupAscending (sorted : ids.Pairwise (· ≤ ·)) : (dedupSorted ids).Pairwise (· < ·) := by
  induction ids using dedupSorted.induct with
  | case1 => exact .nil
  | case2 a => exact List.pairwise_singleton _ _
  | case3 a rest ih =>
    rw [dedupSorted, if_pos rfl]
    exact ih sorted.of_cons
  | case4 a b rest apart ih =>
    rw [dedupSorted, if_neg apart]
    refine (ih sorted.of_cons).cons fun id member => ?_
    have first : a < b := lt_of_le_of_ne (List.rel_of_pairwise_cons sorted (by simp)) apart
    rcases List.mem_cons.mp (dedupMember.mp member) with rfl | further
    · exact first
    · exact lt_of_lt_of_le first (List.rel_of_pairwise_cons sorted.of_cons further)

def collected (ids : List Int) : List Int := dedupSorted (ids.mergeSort fun a b => a ≤ b)

theorem collectedMember : id ∈ collected ids ↔ id ∈ ids := by
  rw [collected, dedupMember, List.mem_mergeSort]

theorem collectedFinset (ids : List Int) : (collected ids).toFinset = ids.toFinset := by
  ext id
  rw [List.mem_toFinset, List.mem_toFinset, collectedMember]

theorem collectedAscending (ids : List Int) : (collected ids).Pairwise (· < ·) := by
  refine dedupAscending ?_
  have sorted := @List.pairwise_mergeSort _ (fun a b : Int => decide (a ≤ b))
    (by simpa using fun a b c => Int.le_trans) (by simpa using Int.le_total) ids
  simpa using sorted

theorem collectSame (same : ∀ id, id ∈ ids ↔ id ∈ others) : collect ids = collect others := by
  have lists : collected ids = collected others :=
    (collectedAscending ids).eq_of_mem_iff (collectedAscending others) fun id => by
      rw [collectedMember, collectedMember, same]
  exact congrArg ofList lists

theorem placesFound (places : Std.HashMap Int Nat) (start : Nat) (distinct : ids.Nodup) (id : Int) :
    (placesFrom places start ids)[id]? =
      if id ∈ ids then some (start + ids.idxOf id) else places[id]? := by
  induction ids generalizing places start with
  | nil => simp [placesFrom]
  | cons first ids ih =>
    obtain ⟨fresh, distinct⟩ := List.nodup_cons.mp distinct
    rw [placesFrom, ih _ _ distinct]
    by_cases here : id = first
    · subst here
      simp [fresh]
    · have later : List.idxOf id (first :: ids) = List.idxOf id ids + 1 :=
        List.idxOf_cons_ne _ (Ne.symm here)
      have kept : (places.insert first start)[id]? = places[id]? := by
        rw [Std.HashMap.getElem?_insert]
        simp [Ne.symm here]
      simp only [List.mem_cons, here, false_or, later, kept, Nat.add_right_comm start 1,
        Nat.add_assoc]

theorem listMapped (distinct : ids.Nodup) (id : Int) (node : Nat) :
    (ofList ids).mapped? id = some node ↔ ids[node]? = some id := by
  have place : (ofList ids).mapped? id = if id ∈ ids then some (ids.idxOf id) else none := by
    have found := placesFound ∅ 0 distinct id
    simpa [mapped?, ofList] using found
  rw [place]
  constructor
  · intro mapped
    obtain ⟨member, same⟩ := Option.ite_none_right_eq_some.mp mapped
    obtain rfl := Option.some.inj same
    exact List.getElem?_idxOf member
  · intro found
    obtain ⟨inside, rfl⟩ := List.getElem?_eq_some_iff.mp found
    rw [if_pos (List.getElem_mem inside), distinct.idxOf_getElem]

theorem listExternal (ids : List Int) (node : Nat) : (ofList ids).external? node = ids[node]? := by
  simp [external?, ofList]

theorem listCount (ids : List Int) : (ofList ids).nodeCount = ids.length := by
  simp [nodeCount, ofList]

theorem collectCount (ids : List Int) : (collect ids).nodeCount = ids.toFinset.card := by
  have distinct : (collected ids).Nodup := (collectedAscending ids).imp ne_of_lt
  rw [← collectedFinset, List.toFinset_card_of_nodup distinct]
  exact listCount (collected ids)

structure Numbers (t : IdTable) (ids : List Int) : Prop where
  ascending : ∀ node node' id id', t.external? node = some id → t.external? node' = some id' →
    node < node' → id < id'
  onto : ∀ id, id ∈ ids ↔ ∃ node < t.nodeCount, t.external? node = some id
  mapped : ∀ id node, t.mapped? id = some node ↔ t.external? node = some id

theorem collectNumbers (ids : List Int) : Numbers (collect ids) ids := by
  have ascending := collectedAscending ids
  have same : collect ids = ofList (collected ids) := rfl
  rw [same]
  refine ⟨fun node node' id id' found found' below => ?_, fun id => ?_, fun id node => ?_⟩
  · rw [listExternal] at found found'
    obtain ⟨inside, rfl⟩ := List.getElem?_eq_some_iff.mp found
    obtain ⟨inside', rfl⟩ := List.getElem?_eq_some_iff.mp found'
    exact List.pairwise_iff_getElem.mp ascending node node' inside inside' below
  · rw [← collectedMember, List.mem_iff_getElem?]
    simp only [listExternal, listCount]
    constructor
    · rintro ⟨node, found⟩
      exact ⟨node, (List.getElem?_eq_some_iff.mp found).1, found⟩
    · rintro ⟨node, -, found⟩
      exact ⟨node, found⟩
  · rw [listExternal]
    exact listMapped (ascending.imp ne_of_lt) id node

theorem externalInside {t : IdTable} {node : Nat} (inside : node < t.nodeCount) :
    ∃ id, t.external? node = some id :=
  ⟨t.externals[node], Array.getElem?_eq_getElem inside⟩

theorem collectedSort (ids : List Int) : ids.toFinset.sort (· ≤ ·) = collected ids := by
  have ascending := collectedAscending ids
  rw [← collectedFinset]
  exact (List.toFinset_sort _ (ascending.imp ne_of_lt)).mpr (ascending.imp le_of_lt)

/-- A table that numbers exactly `ids`, from the least to the greatest one: `places` is the numbering
which both of its lookups read. -/
structure Orders (t : IdTable) (ids : Finset Int) (places : ids ≃o Fin ids.card) : Prop where
  count : t.nodeCount = ids.card
  mapped : ∀ id : ids, t.mapped? id = some (places id).val
  unmapped : ∀ id, id ∉ ids → t.mapped? id = none
  external : ∀ node : Fin ids.card, t.external? node = some (places.symm node).val
  beyond : ∀ node, ids.card ≤ node → t.external? node = none

/-- Collected ids are numbered in their order, and the table shows only which ids were collected. -/
theorem collectOrders (ids : List Int) :
    (∃ places, Orders (collect ids) ids.toFinset places) ∧
      ∀ others : List Int, others.toFinset = ids.toFinset → collect others = collect ids := by
  let places := (ids.toFinset.orderIsoOfFin rfl).symm
  have count := collectCount ids
  have external (node : Fin ids.toFinset.card) :
      (collect ids).external? node = some (places.symm node).val := by
    have inside : node.val < (ids.toFinset.sort (· ≤ ·)).length := by
      rw [Finset.length_sort]
      exact node.isLt
    have here : (places.symm node).val = (ids.toFinset.sort (· ≤ ·))[node.val] := rfl
    have listed := listExternal (collected ids) node
    rw [← collectedSort, List.getElem?_eq_getElem inside, ← here] at listed
    rw [← listed, collectedSort]
    rfl
  have numbers := collectNumbers ids
  refine ⟨⟨places, count, fun id => ?_, fun id apart => ?_, external, fun node beyond => ?_⟩, ?_⟩
  · rw [numbers.mapped, external, places.symm_apply_apply]
  · refine Option.eq_none_iff_forall_ne_some.mpr fun node mapped => apart ?_
    have found := (numbers.mapped id node).mp mapped
    have inside : node < (collect ids).nodeCount := (Array.getElem?_eq_some_iff.mp found).1
    exact List.mem_toFinset.mpr ((numbers.onto id).mpr ⟨node, inside, found⟩)
  · exact Array.getElem?_eq_none (count.le.trans beyond)
  · intro others same
    refine collectSame fun id => ?_
    rw [← List.mem_toFinset, same, List.mem_toFinset]

theorem sampleOrders :
    ([1337, 42, 9223372036854775807, -5, 42, -9223372036854775808] : List Int).toFinset =
        [-9223372036854775808, -5, 42, 1337, 9223372036854775807].toFinset ∧
      collect [1337, 42, 9223372036854775807, -5, 42, -9223372036854775808] =
        collect [-9223372036854775808, -5, 42, 1337, 9223372036854775807] :=
  ⟨by decide, (collectOrders _).2 _ (by decide)⟩

end CommunityGraph.IdTable
