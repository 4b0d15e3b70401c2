import Mathlib.Data.List.Basic
import CommunityGraph.Storage.Arena
import CommunityGraph.Proofs.Storage.Segment

/-! Allocating and writing only ever appends to a page, so what was written once stays where it is,
whichever allocators work on the pages afterwards. -/
namespace CommunityGraph
variable {α : Type}

namespace Arena

def Holds (pages : Array (Array α)) (address : Address) (values : List α) : Prop :=
  ∃ page, pages[address.page]? = some page ∧ Segment page address.offset values

def Grows (before after : Array (Array α)) : Prop :=
  ∀ (index : Nat) (page : Array α), before[index]? = some page →
    ∃ more, after[index]? = some (page ++ more)

end Arena

def Allocator.On (allocator : Allocator) (pages : Array (Array α)) : Prop :=
  ∀ page, allocator.page = some page → page < pages.size

theorem Allocator.emptyOn (pages : Array (Array α)) : Allocator.empty.On pages := by
  intro page at_
  cases at_

namespace Arena

theorem growsRefl (pages : Array (Array α)) : Grows pages pages :=
  fun _ page found => ⟨#[], by simpa using found⟩

theorem Grows.trans {first second third : Array (Array α)} (one : Grows first second)
    (two : Grows second third) : Grows first third := by
  intro index page found
  obtain ⟨more, there⟩ := one index page found
  obtain ⟨further, later⟩ := two index _ there
  exact ⟨more ++ further, by rw [later, Array.append_assoc]⟩

theorem Grows.size {before after : Array (Array α)} (grows : Grows before after) :
    before.size ≤ after.size := by
  rcases Nat.eq_zero_or_pos before.size with none | some
  · omega
  · obtain ⟨more, found⟩ := grows (before.size - 1) _ (Array.getElem?_eq_getElem (by omega))
    obtain ⟨inside, _⟩ := Array.getElem?_eq_some_iff.mp found
    omega

end Arena

theorem Allocator.On.later {before after : Array (Array α)} {allocator : Allocator}
    (on : allocator.On before) (grows : Arena.Grows before after) : allocator.On after :=
  fun page filling => Nat.lt_of_lt_of_le (on page filling) grows.size

namespace Arena

theorem Holds.later {before after : Array (Array α)} {address : Address} {values : List α}
    (held : Holds before address values) (grows : Grows before after) :
    Holds after address values := by
  obtain ⟨page, found, placed⟩ := held
  obtain ⟨more, there⟩ := grows _ _ found
  exact ⟨page ++ more, there, placed.grown more⟩

theorem growsPush (pages : Array (Array α)) (page : Array α) : Grows pages (pages.push page) := by
  intro index old found
  obtain ⟨inside, _⟩ := Array.getElem?_eq_some_iff.mp found
  refine ⟨#[], ?_⟩
  rw [Array.getElem?_push_lt inside, ← Array.getElem?_eq_getElem inside, found]
  simp

theorem growsAppend (pages : Array (Array α)) (index : Nat) (more : Array α) :
    Grows pages (pages.modify index fun page => page ++ more) := by
  intro other page found
  rw [Array.getElem?_modify]
  by_cases same : index = other
  · exact ⟨more, by simp [same, found]⟩
  · exact ⟨#[], by simp [same, found]⟩

theorem writeFromEnd (front : Array α) {old values : List α}
    (same : old.length = values.length) :
    writeFrom (front ++ old.toArray) front.size values = front ++ values.toArray := by
  induction values generalizing front old with
  | nil => rw [List.eq_nil_of_length_eq_zero same]; rfl
  | cons value values ih =>
    obtain ⟨first, rest, rfl⟩ := List.exists_cons_of_length_eq_add_one same
    have overwritten : (front ++ (first :: rest).toArray).setIfInBounds front.size value =
        front.push value ++ rest.toArray := by
      apply Array.toList_inj.mp
      simp
    have shorter : rest.length = values.length := by simpa using same
    have next := ih (front.push value) shorter
    rw [writeFrom, overwritten]
    rw [Array.size_push] at next
    rw [next]
    apply Array.toList_inj.mp
    simp

theorem writeReserved {arena : Arena α} {index : Nat} {page : Array α}
    (found : arena.pages[index]? = some page) (zero : α) (values : List α) :
    ((arena.extend index values.length zero).write ⟨index, page.size⟩ values).pages =
      arena.pages.modify index fun page => page ++ values.toArray := by
  apply Array.ext_getElem?
  intro other
  simp only [extend, write, Array.getElem?_modify]
  by_cases same : index = other
  · subst same
    have reserved : Array.replicate values.length zero =
        (List.replicate values.length zero).toArray := by simp
    simp only [if_true, found, Option.map_some, reserved]
    rw [writeFromEnd page (by simp)]
  · simp [same]

structure Placed (before after : Array (Array α)) (address : Address) (values : List α)
    (allocator : Allocator) : Prop where
  holds : Holds after address values
  grows : Grows before after
  on : allocator.On after

theorem placedAt {arena : Arena α} {allocator : Allocator} {index : Nat} {old : Array α}
    (found : arena.pages[index]? = some old) (on : allocator.On arena.pages) (zero : α)
    (values : List α) :
    Placed arena.pages ((arena.extend index values.length zero).write ⟨index, old.size⟩ values).pages
      ⟨index, old.size⟩ values allocator := by
  have grows := growsAppend arena.pages index values.toArray
  rw [writeReserved found]
  refine ⟨⟨old ++ values.toArray, ?_, .whole _ _⟩, grows, on.later grows⟩
  rw [Array.getElem?_modify, if_pos rfl, found]
  rfl

def Affordable (arena : Arena α) (length : Nat) : Prop :=
  max arena.pageSize length * arena.elementBytes ≤ Memory.maxBlock

inductive Allotted (arena : Arena α) (allocator : Allocator) (length : Nat) (zero : α) :
    Except EngineError Address × Allocator × Arena α → Prop where
  | refused {bytes : Nat} (costly : ¬ arena.Affordable length) :
      Allotted arena allocator length zero (.error (.allocationFailed bytes), .empty, arena)
  | continued {page : Nat} {old : Array α} (filling : allocator.page = some page)
      (found : arena.pages[page]? = some old) (room : length ≤ allocator.capacity - old.size) :
      Allotted arena allocator length zero
        (.ok ⟨page, old.size⟩, allocator, arena.extend page length zero)
  | opened (affordable : arena.Affordable length) :
      Allotted arena allocator length zero
        (.ok ⟨arena.pages.size, 0⟩, ⟨some arena.pages.size, max arena.pageSize length⟩,
          { arena with pages := arena.pages.push (Array.replicate length zero) })

section Allocate
variable {arena : Arena α} {allocator : Allocator} {length : Nat}

theorem extendOpened (arena : Arena α) (length : Nat) (zero : α) :
    ({ arena with pages := arena.pages.push #[] } : Arena α).extend arena.pages.size length zero =
      { arena with pages := arena.pages.push (Array.replicate length zero) } := by
  have pushed : (arena.pages.push #[]).modify arena.pages.size
      (fun page => page ++ Array.replicate length zero) =
      arena.pages.push (Array.replicate length zero) := by
    apply Array.ext_getElem?
    intro index
    rw [Array.getElem?_modify, Array.getElem?_push, Array.getElem?_push]
    by_cases last : index = arena.pages.size
    · simp [last]
    · simp [last, Ne.symm last]
  rw [extend, pushed]

theorem allocateContinued {page : Nat} {old : Array α} (filling : allocator.page = some page)
    (found : arena.pages[page]? = some old) (room : length ≤ allocator.capacity - old.size)
    (zero : α) :
    arena.allocate allocator length zero =
      (.ok ⟨page, old.size⟩, allocator, arena.extend page length zero) := by
  have used : arena.used allocator = old.size := by simp [used, filling, found]
  have fit : arena.fits allocator length = true := by simp [fits, filling, used, room]
  simp [allocate, fit, filling, used]

theorem allocateRefused (full : arena.fits allocator length = false)
    (costly : ¬ arena.Affordable length) (zero : α) :
    arena.allocate allocator length zero =
      (.error (.allocationFailed (max arena.pageSize length * arena.elementBytes % UInt64.size)),
        .empty, arena) := by
  have above : Memory.maxBlock < max arena.pageSize length * arena.elementBytes :=
    Nat.not_le.mp costly
  simp [allocate, full, openPage, above]

theorem allocateOpened (full : arena.fits allocator length = false)
    (affordable : arena.Affordable length) (zero : α) :
    arena.allocate allocator length zero =
      (.ok ⟨arena.pages.size, 0⟩, ⟨some arena.pages.size, max arena.pageSize length⟩,
        { arena with pages := arena.pages.push (Array.replicate length zero) }) := by
  have below : ¬ Memory.maxBlock < max arena.pageSize length * arena.elementBytes :=
    Nat.not_lt.mpr affordable
  simp [allocate, full, openPage, below, used, extendOpened]

theorem allocateAllotted (on : allocator.On arena.pages) (length : Nat) (zero : α) :
    Allotted arena allocator length zero (arena.allocate allocator length zero) := by
  cases fit : arena.fits allocator length with
  | true =>
    simp only [fits, Bool.and_eq_true, Option.isSome_iff_exists, decide_eq_true_eq] at fit
    obtain ⟨⟨page, filling⟩, room⟩ := fit
    obtain ⟨old, found⟩ : ∃ old, arena.pages[page]? = some old :=
      ⟨_, Array.getElem?_eq_getElem (on page filling)⟩
    have used : arena.used allocator = old.size := by simp [used, filling, found]
    rw [used] at room
    rw [allocateContinued filling found room]
    exact .continued filling found room
  | false =>
    by_cases affordable : arena.Affordable length
    · rw [allocateOpened fit affordable]
      exact .opened affordable
    · rw [allocateRefused fit affordable]
      exact .refused affordable

end Allocate

theorem allocateCases (arena : Arena α) {allocator : Allocator} (on : allocator.On arena.pages)
    (length : Nat) (zero : α) :
    (∃ bytes, arena.allocate allocator length zero =
        (.error (.allocationFailed bytes), .empty, arena) ∧ ¬ arena.Affordable length) ∨
    ∃ address next fresh, arena.allocate allocator length zero = (.ok address, next, fresh) ∧
      fresh.pageSize = arena.pageSize ∧ fresh.elementBytes = arena.elementBytes ∧
      ∀ values : List α, values.length = length →
        Placed arena.pages (fresh.write address values).pages address values next := by
  have ended := allocateAllotted on length zero
  generalize arena.allocate allocator length zero = answer at ended
  cases ended with
  | refused costly => exact .inl ⟨_, rfl, costly⟩
  | continued filling found room =>
    refine .inr ⟨_, _, _, rfl, rfl, rfl, ?_⟩
    rintro values rfl
    exact placedAt found on zero values
  | opened affordable =>
    refine .inr ⟨_, _, _, rfl, rfl, rfl, ?_⟩
    rintro values rfl
    let started : Arena α := { arena with pages := arena.pages.push #[] }
    have found : started.pages[arena.pages.size]? = some #[] := by simp [started]
    have next : Allocator.On ⟨some arena.pages.size, max arena.pageSize values.length⟩
        started.pages := by
      intro page filling
      cases filling
      simp [started]
    have placed := placedAt found next zero values
    rw [extendOpened] at placed
    exact ⟨placed.holds, (growsPush _ _).trans placed.grows, placed.on⟩

theorem sliceHeld {pages : Array (Array α)} {address : Address} {values : List α}
    (held : Holds pages address values) : slice? pages address values.length = some values := by
  obtain ⟨page, found, placed⟩ := held
  simp only [slice?, found, if_pos placed.fits, placed.extracted]

theorem Holds.left {pages : Array (Array α)} {address : Address} {xs ys : List α}
    (held : Holds pages address (xs ++ ys)) : Holds pages address xs := by
  obtain ⟨page, found, placed⟩ := held
  exact ⟨page, found, placed.left⟩

theorem Holds.right {pages : Array (Array α)} {address : Address} {xs ys : List α}
    (held : Holds pages address (xs ++ ys)) :
    Holds pages ⟨address.page, address.offset + xs.length⟩ ys := by
  obtain ⟨page, found, placed⟩ := held
  exact ⟨page, found, placed.right⟩

end Arena
end CommunityGraph
