import Mathlib
import CommunityGraph.Storage.PagedArray

/-! Paged arrays as flat lists. Where an element stands in the pages is where it stands in the list, so
no sequence of accesses can tell the two apart. -/
namespace CommunityGraph.PagedArray
variable {α : Type}

section Addresses

theorem pageIndexDiv (index : Nat) : pageIndex index = index / pageSize :=
  Nat.shiftRight_eq_div_pow index pageShift

theorem indexInPageMod (index : Nat) : indexInPage index = index % pageSize :=
  Nat.and_two_pow_sub_one_eq_mod index pageShift

theorem baseMul (page : Nat) : page <<< pageShift = page * pageSize := by
  rw [Nat.shiftLeft_eq, pageSize, Nat.one_shiftLeft]

theorem pageSizePos : 0 < pageSize := by decide

theorem addressSplit (index : Nat) : pageIndex index <<< pageShift + indexInPage index = index := by
  rw [baseMul, pageIndexDiv, indexInPageMod, Nat.div_add_mod']

theorem addressUnique {index other : Nat} (page : pageIndex index = pageIndex other)
    (offset : indexInPage index = indexInPage other) : index = other := by
  rw [← addressSplit index, page, offset, addressSplit]

theorem addressFirst {index : Nat} (small : index < pageSize) :
    pageIndex index = 0 ∧ indexInPage index = index := by
  rw [pageIndexDiv, indexInPageMod, Nat.div_eq_of_lt small, Nat.mod_eq_of_lt small]
  exact ⟨rfl, rfl⟩

theorem addressNext (index : Nat) :
    pageIndex (pageSize + index) = pageIndex index + 1 ∧
      indexInPage (pageSize + index) = indexInPage index := by
  rw [pageIndexDiv, pageIndexDiv, indexInPageMod, indexInPageMod,
    Nat.add_div_left _ pageSizePos, Nat.add_mod_left]
  exact ⟨rfl, rfl⟩

end Addresses

section Sizes

theorem pageSizesSum (size : Nat) : (pageSizes size).sum = size := by
  have whole : pageIndex size * pageSize + indexInPage size = size := by
    rw [← baseMul, addressSplit]
  rw [pageSizes, List.sum_append, List.sum_replicate, smul_eq_mul]
  split
  · simpa using whole
  · simp only [List.sum_nil]
    omega

inductive Shaped : List Nat → Prop where
  | nil : Shaped []
  | last {length : Nat} (short : length ≤ pageSize) : Shaped [length]
  | full {lengths : List Nat} (next : Shaped lengths) : Shaped (pageSize :: lengths)

theorem pageSizesShaped (size : Nat) : Shaped (pageSizes size) := by
  unfold pageSizes
  induction pageIndex size with
  | zero =>
    split
    · refine .last (Nat.le_of_lt ?_)
      rw [indexInPageMod]
      exact Nat.mod_lt _ pageSizePos
    · exact .nil
  | succ pages ih => exact .full ih

theorem pageSizesFull {size length : Nat} (member : length ∈ pageSizes size) :
    0 < length ∧ length ≤ pageSize := by
  rcases List.mem_append.mp member with full | rest
  · obtain rfl := List.eq_of_mem_replicate full
    exact ⟨pageSizePos, le_rfl⟩
  · split at rest
    · rename_i positive
      obtain rfl := List.mem_singleton.mp rest
      rw [indexInPageMod] at positive ⊢
      exact ⟨positive, (Nat.mod_lt _ pageSizePos).le⟩
    · cases rest

theorem pageSizesBefore {size length : Nat} (member : length ∈ (pageSizes size).dropLast) :
    length = pageSize := by
  unfold pageSizes at member
  split at member
  · rw [List.dropLast_concat] at member
    exact List.eq_of_mem_replicate member
  · rw [List.append_nil] at member
    exact List.eq_of_mem_replicate (List.mem_of_mem_dropLast member)

theorem Shaped.found {pages : List (List α)} (shaped : Shaped (pages.map List.length)) (index : Nat) :
    pages.flatten[index]? =
      pages[pageIndex index]?.bind fun page => page[indexInPage index]? := by
  generalize same : pages.map List.length = lengths at shaped
  induction shaped generalizing pages index with
  | nil =>
    obtain rfl := List.map_eq_nil_iff.mp same
    rfl
  | last short =>
    obtain ⟨page, rfl, rfl⟩ := List.map_eq_singleton_iff.mp same
    rw [List.flatten_singleton]
    by_cases first : index < pageSize
    · rw [(addressFirst first).1, (addressFirst first).2]
      rfl
    · have beyond : pageIndex index ≠ 0 := by
        rw [pageIndexDiv]
        exact (Nat.div_pos (Nat.le_of_not_lt first) pageSizePos).ne'
      have outside : page.length ≤ index := short.trans (Nat.le_of_not_lt first)
      rw [List.getElem?_eq_none outside, List.getElem?_eq_none (by simp; omega)]
      rfl
  | full next ih =>
    obtain ⟨page, rest, rfl, length, same⟩ := List.map_eq_cons_iff.mp same
    rw [List.flatten_cons]
    by_cases first : index < pageSize
    · rw [(addressFirst first).1, (addressFirst first).2, List.getElem?_append_left (length ▸ first)]
      rfl
    · obtain ⟨further, rfl⟩ := Nat.exists_eq_add_of_le (Nat.le_of_not_lt first)
      rw [(addressNext further).1, (addressNext further).2, ← length, List.getElem?_append_right (by omega),
        Nat.add_sub_cancel_left, ih further same, List.getElem?_cons_succ]

end Sizes

structure Holds (a : PagedArray α) (xs : List α) : Prop where
  size : a.size = xs.length
  lengths : a.pages.toList.map Array.size = pageSizes a.size
  elements : a.toList = xs

section Reading
variable {a : PagedArray α} {xs : List α}

theorem getToList (lengths : a.pages.toList.map Array.size = pageSizes a.size) (index : Nat) :
    a.get? index = a.toList[index]? := by
  have shaped : Shaped ((a.pages.toList.map Array.toList).map List.length) := by
    rw [List.map_map]
    exact lengths ▸ pageSizesShaped a.size
  rw [toList, List.flatMap_def, shaped.found, List.getElem?_map, Array.getElem?_toList, get?]
  cases a.pages[pageIndex index]? <;> simp

theorem Holds.get (holds : Holds a xs) (index : Nat) : a.get? index = xs[index]? :=
  holds.elements ▸ getToList holds.lengths index

theorem holdsGet (lengths : a.pages.toList.map Array.size = pageSizes a.size)
    (size : a.size = xs.length) (get : ∀ index, a.get? index = xs[index]?) : Holds a xs where
  size := size
  lengths := lengths
  elements := List.ext_getElem? fun index => (getToList lengths index).symm.trans (get index)

end Reading

section Making

theorem fillSizes (f : Nat → α) (base : Nat) (lengths : List Nat) :
    (fillFrom f base lengths).map Array.size = lengths := by
  induction lengths generalizing base with
  | nil => rfl
  | cons length lengths ih => simp [fillFrom, ih]

theorem fillElements (f : Nat → α) (base : Nat) (lengths : List Nat) :
    (fillFrom f base lengths).flatMap Array.toList = (List.range' base lengths.sum).map f := by
  induction lengths generalizing base with
  | nil => rfl
  | cons length lengths ih =>
    have page : (Array.ofFn fun offset : Fin length => f (base + offset)).toList =
        (List.range' base length).map f := List.ext_getElem (by simp) (by simp)
    rw [fillFrom, List.flatMap_cons, ih, page, List.sum_cons, ← List.range'_append_1, List.map_append]

theorem ofFnHolds (size : Nat) (f : Nat → α) : Holds (ofFn size f) ((List.range size).map f) where
  size := by simp [ofFn]
  lengths := fillSizes f 0 (pageSizes size)
  elements := by
    have filled := fillElements f 0 (pageSizes size)
    rwa [pageSizesSum, ← List.range_eq_range'] at filled

theorem fillConstant (value : α) (base : Nat) (lengths : List Nat) :
    fillFrom (fun _ => value) base lengths =
      lengths.map fun length => Array.replicate length value := by
  induction lengths generalizing base with
  | nil => rfl
  | cons length lengths ih =>
    have page : (Array.ofFn fun _ : Fin length => value) = Array.replicate length value :=
      Array.ext (by simp) (by simp)
    rw [fillFrom, ih, List.map_cons, page]

theorem replicateFill (size : Nat) (value : α) : replicate size value = ofFn size fun _ => value := by
  rw [replicate, ofFn, fillConstant]

end Making

section Writing
variable {a after : PagedArray α} {xs : List α} {index : Nat} {value : α}

theorem getSetAll (f : Nat → α) (index : Nat) :
    (a.setAll f).get? index = (a.get? index).map fun _ => f index := by
  rw [get?, get?, PagedArray.setAll, Array.getElem?_mapIdx]
  cases a.pages[pageIndex index]? with
  | none => rfl
  | some page =>
    simp only [Option.map_some, Option.bind_some, Array.getElem?_mapIdx, addressSplit]

theorem Holds.setAll (holds : Holds a xs) (f : Nat → α) :
    Holds (a.setAll f) ((List.range xs.length).map f) := by
  refine holdsGet ?_ ?_ fun index => ?_
  · rw [PagedArray.setAll, ← holds.lengths]
    exact List.ext_getElem (by simp) (by simp)
  · rw [List.length_map, List.length_range]
    exact holds.size
  · rw [getSetAll, holds.get]
    by_cases inside : index < xs.length <;> simp [inside]

theorem setNone (missing : a.get? index = none) (value : α) : a.set? index value = none := by
  rw [set?, missing]

theorem setSome {found : α} (some : a.get? index = some found) (value : α) :
    ∃ after, a.set? index value = .some after ∧ after.size = a.size ∧
      after.pages.toList.map Array.size = a.pages.toList.map Array.size ∧
      ∀ other, after.get? other = if index = other then .some value else a.get? other := by
  rw [set?, some]
  refine ⟨_, rfl, rfl, List.ext_getElem (by simp) fun page small _ => ?_, fun other => ?_⟩
  · simp only [List.getElem_map, Array.getElem_toList, Array.getElem_modify]
    split <;> simp
  obtain ⟨page, here, inside⟩ := Option.bind_eq_some_iff.mp some
  rw [get?, get?, Array.getElem?_modify]
  by_cases same : index = other
  · subst same
    have small := (Array.getElem?_eq_some_iff.mp inside).1
    simp [here, small]
  rw [if_neg same]
  by_cases shared : pageIndex index = pageIndex other
  · have apart : indexInPage index ≠ indexInPage other := fun offset => same (addressUnique shared offset)
    rw [if_pos shared, ← shared, here]
    exact Array.getElem?_setIfInBounds_ne apart
  · rw [if_neg shared]

theorem Holds.set (holds : Holds a xs) (inside : index < xs.length) (value : α) :
    ∃ after, a.set? index value = some after ∧ Holds after (xs.set index value) := by
  have some : a.get? index = some xs[index] := (holds.get index).trans (List.getElem?_eq_getElem inside)
  obtain ⟨after, set, size, lengths, get⟩ := setSome some value
  refine ⟨after, set, holdsGet ?_ ?_ fun other => ?_⟩
  · rw [lengths, size, holds.lengths]
  · rw [size, List.length_set, holds.size]
  · rw [get, holds.get, List.getElem?_set]
    split <;> simp

inductive Made [Inhabited α] (size : Nat) : PagedArray α → List α → Prop where
  | replicate (value : α) : Made size (.replicate size value) (List.replicate size value)
  | ofFn (f : Nat → α) : Made size (.ofFn size f) ((List.range size).map f)
  | generate (f : Nat → α) : Made size (.generate size f) ((List.range size).map f)

theorem Made.holds [Inhabited α] {size : Nat} (made : Made size a xs) :
    Holds a xs ∧ xs.length = size := by
  have replicated (value : α) : Holds (.replicate size value) (List.replicate size value) := by
    have constant := ofFnHolds size fun _ => value
    rwa [← replicateFill, List.map_const', List.length_range] at constant
  cases made with
  | replicate value => exact ⟨replicated value, List.length_replicate⟩
  | ofFn f => exact ⟨ofFnHolds size f, by simp⟩
  | generate f =>
    have filled := (replicated default).setAll f
    rw [List.length_replicate] at filled
    exact ⟨filled, by simp⟩

end Writing

section Calls

inductive Call (α : Type) where
  | get (index : Nat)
  | set (index : Nat) (value : α)
  | setAll (f : Nat → α)
  | list
  | replaceIf (index : Nat) (current new : α)

inductive Answer (α : Type) where
  | element (found : α)
  | listed (elements : List α)
  | replaced (found : α)
  | kept (found : α)
  | done
  | outside
  deriving DecidableEq

variable [DecidableEq α]

def perform (a : PagedArray α) : Call α → Answer α × PagedArray α
  | .get index => ((a.get? index).elim .outside .element, a)
  | .set index value => (a.set? index value).elim (.outside, a) fun after => (.done, after)
  | .setAll f => (.done, a.setAll f)
  | .list => (.listed a.toList, a)
  | .replaceIf index current new =>
      match a.replaceIf? index current new with
      | none => (.outside, a)
      | some (.inl found, after) => (.kept found, after)
      | some (.inr found, after) => (.replaced found, after)

def performList (xs : List α) : Call α → Answer α × List α
  | .get index => ((xs[index]?).elim .outside .element, xs)
  | .set index value => if index < xs.length then (.done, xs.set index value) else (.outside, xs)
  | .setAll f => (.done, (List.range xs.length).map f)
  | .list => (.listed xs, xs)
  | .replaceIf index current new =>
      match xs[index]? with
      | none => (.outside, xs)
      | some found =>
          if found = current then (.replaced found, xs.set index new) else (.kept found, xs)

def answers {σ : Type} (step : σ → Call α → Answer α × σ) : σ → List (Call α) → List (Answer α) × σ
  | state, [] => ([], state)
  | state, call :: calls =>
      let (answer, next) := step state call
      let (rest, last) := answers step next calls
      (answer :: rest, last)

variable {a : PagedArray α} {xs : List α}

theorem Holds.perform (holds : Holds a xs) (call : Call α) :
    (a.perform call).1 = (performList xs call).1 ∧
      Holds (a.perform call).2 (performList xs call).2 ∧
      (performList xs call).2.length = xs.length := by
  cases call with
  | get index =>
    refine ⟨?_, holds, rfl⟩
    simp only [PagedArray.perform, performList, holds.get]
  | set index value =>
    simp only [PagedArray.perform, performList]
    split
    · rename_i inside
      obtain ⟨after, set, next⟩ := holds.set inside value
      rw [set]
      exact ⟨rfl, next, List.length_set⟩
    · rename_i beyond
      have missing : a.get? index = none :=
        (holds.get index).trans (List.getElem?_eq_none (Nat.le_of_not_lt beyond))
      rw [setNone missing]
      exact ⟨rfl, holds, rfl⟩
  | setAll f => exact ⟨rfl, holds.setAll f, by simp [performList]⟩
  | list => exact ⟨congrArg Answer.listed holds.elements, holds, rfl⟩
  | replaceIf index current new =>
    simp only [PagedArray.perform, performList, replaceIf?, holds.get]
    cases found : xs[index]? with
    | none => exact ⟨rfl, holds, rfl⟩
    | some element =>
      obtain ⟨inside, -⟩ := List.getElem?_eq_some_iff.mp found
      by_cases same : element = current
      · obtain ⟨after, set, next⟩ := holds.set inside new
        simp only [if_pos same, set, Option.map_some]
        exact ⟨trivial, next, List.length_set⟩
      · simp only [if_neg same]
        exact ⟨trivial, holds, trivial⟩

theorem Holds.answers (holds : Holds a xs) (calls : List (Call α)) :
    (answers PagedArray.perform a calls).1 = (answers performList xs calls).1 ∧
      Holds (answers PagedArray.perform a calls).2 (answers performList xs calls).2 ∧
      (answers performList xs calls).2.length = xs.length := by
  induction calls generalizing a xs with
  | nil => exact ⟨rfl, holds, rfl⟩
  | cons call calls ih =>
    obtain ⟨answer, next, length⟩ := holds.perform call
    obtain ⟨rest, last, lengths⟩ := ih next
    simp only [PagedArray.answers]
    exact ⟨by rw [answer, rest], last, lengths.trans length⟩

structure Flat (size : Nat) (a : PagedArray α) (xs : List α) : Prop where
  sized : a.size = size
  elements : a.toList = xs
  length : a.toList.length = size
  order : ∀ index, a.toList[index]? = a.get? index
  reads : ∀ index, (a.get? index).isSome = true ↔ index < size
  writes : ∀ index value, (a.set? index value).isSome = true ↔ index < size
  replaces : ∀ index current new, (a.replaceIf? index current new).isSome = true ↔ index < size
  pages : a.pages.toList.map Array.size = pageSizes size

theorem Holds.flat (holds : Holds a xs) : Flat xs.length a xs where
  sized := holds.size
  elements := holds.elements
  length := by rw [holds.elements]
  order index := (getToList holds.lengths index).symm
  reads index := by
    rw [holds.get]
    simp
  writes index value := by
    rw [set?, holds.get]
    cases found : xs[index]? with
    | none => simpa using found
    | some element => simpa using (List.getElem?_eq_some_iff.mp found).1
  replaces index current new := by
    rw [replaceIf?, holds.get]
    cases found : xs[index]? with
    | none => simpa using found
    | some element =>
      obtain ⟨inside, -⟩ := List.getElem?_eq_some_iff.mp found
      obtain ⟨after, set, -⟩ := holds.set inside new
      by_cases same : element = current <;> simp [same, set, inside]
  pages := holds.size ▸ holds.lengths

theorem pagesUnseen [Inhabited α] {size : Nat} (made : Made size a xs) (calls : List (Call α)) :
    (answers perform a calls).1 = (answers performList xs calls).1 ∧
      Flat size (answers perform a calls).2 (answers performList xs calls).2 ∧
      (pageSizes size).sum = size ∧ (∀ length ∈ (pageSizes size).dropLast, length = pageSize) ∧
      ∀ length ∈ pageSizes size, 0 < length ∧ length ≤ pageSize := by
  obtain ⟨holds, length⟩ := made.holds
  obtain ⟨same, last, lengths⟩ := holds.answers calls
  have flat := last.flat
  rw [lengths, length] at flat
  exact ⟨same, flat, pageSizesSum size, fun _ => pageSizesBefore, fun _ => pageSizesFull⟩

def sampleCalls : List (Call Nat) :=
  [.set 16384 7, .get 16384, .get 16385, .replaceIf 16383 16383 5, .get 16383]

theorem sampleAnswers {xs : List Nat} (length : xs.length = 16385) (found : xs[16383]? = some 16383) :
    (answers performList xs sampleCalls).1 =
      [.done, .element 7, .outside, .replaced 16383, .element 5] := by
  obtain ⟨inside, same⟩ := List.getElem?_eq_some_iff.mp found
  simp [sampleCalls, answers, performList, length, same]

theorem samplePages :
    Made 16385 (.ofFn 16385 id) ((List.range 16385).map id) ∧
      (answers perform (.ofFn 16385 id) sampleCalls).1 =
        [.done, .element 7, .outside, .replaced 16383, .element 5] := by
  have made : Made 16385 (.ofFn 16385 id) ((List.range 16385).map id) := .ofFn id
  refine ⟨made, (pagesUnseen made sampleCalls).1.trans (sampleAnswers ?_ ?_)⟩
  · rw [List.length_map, List.length_range]
  · rw [List.map_id, List.getElem?_range (by omega)]

end Calls
end CommunityGraph.PagedArray
