import Mathlib.Data.List.Basic
import CommunityGraph.SlotPool

/-! A pool whose slots are all free is a queue: leasing takes its head, giving back appends to it, and
closing drains it in order. -/
namespace CommunityGraph.SlotPool
variable {α σ : Type}

theorem heldNext {index : Nat} {indices : List Nat} {slots : Array α} {slot : α} {queue : List α}
    (distinct : (index :: indices).Nodup)
    (held : (index :: indices).map (fun other => slots[other]?) = (slot :: queue).map some) :
    slots[index]? = some slot ∧ ∀ slot',
      indices.map (fun other => (slots.setIfInBounds index slot')[other]?) = queue.map some := by
  simp only [List.map_cons, List.cons.injEq] at held
  refine ⟨held.1, fun slot' => ?_⟩
  rw [← held.2]
  refine List.map_congr_left fun other member => ?_
  have different : index ≠ other := fun same => (List.nodup_cons.mp distinct).1 (same ▸ member)
  exact Array.getElem?_setIfInBounds_ne different

structure Queue (p : SlotPool α) (queue : List α) : Prop where
  opened : p.closed = false
  distinct : p.free.Nodup
  whole : p.free.length = p.slots.size
  held : p.free.map (fun index => p.slots[index]?) = queue.map some

theorem ofListQueue (slots : List α) : Queue (ofList slots) slots where
  opened := rfl
  distinct := List.nodup_range
  whole := by simp [ofList]
  held := by
    apply List.ext_getElem?
    intro index
    by_cases inside : index < slots.length
    · simp [ofList, inside]
    · simp [ofList, inside]

theorem Queue.turn {p : SlotPool α} {slot : α} {others : List α} (queue : Queue p (slot :: others)) :
    ∃ index pool, p.acquire = .leased index pool ∧ pool.get? index = some slot ∧
      ∀ slot', Queue ((pool.update index slot').release index) (others ++ [slot']) := by
  obtain ⟨slots, free, closed⟩ := p
  obtain ⟨opened, distinct, whole, held⟩ := queue
  obtain rfl : closed = false := opened
  cases free with
  | nil => simp at held
  | cons index rest =>
    obtain ⟨here, kept⟩ := heldNext distinct held
    obtain ⟨fresh, apart⟩ := List.nodup_cons.mp distinct
    have inside : index < slots.size := (Array.getElem?_eq_some_iff.mp here).1
    refine ⟨index, ⟨slots, rest, false⟩, rfl, here, fun slot' => ?_⟩
    refine ⟨rfl, ?_, by simpa [release, update] using whole, ?_⟩
    · simp only [release, update]
      refine List.nodup_append.mpr ⟨apart, by simp, ?_⟩
      intro other inRest same last
      obtain rfl := List.mem_singleton.mp last
      exact fun equal => fresh (equal ▸ inRest)
    · simp [release, update, kept, inside]

def drainAll (drain : α → σ → α × σ) (queue : List α) (state : σ) : σ :=
  queue.foldl (fun state slot => (drain slot state).2) state

theorem drainSlotsAll (drain : α → σ → α × σ) {indices : List Nat} (distinct : indices.Nodup)
    {slots : Array α} {queue : List α}
    (held : indices.map (fun index => slots[index]?) = queue.map some) (state : σ) :
    (drainSlots drain indices slots state).2 = drainAll drain queue state := by
  induction indices generalizing slots queue state with
  | nil =>
    cases queue with
    | nil => rfl
    | cons slot queue => simp at held
  | cons index indices ih =>
    cases queue with
    | nil => simp at held
    | cons slot queue =>
      obtain ⟨here, later⟩ := heldNext distinct held
      simp only [drainSlots, here]
      exact ih (List.nodup_cons.mp distinct).2 (later _) _

def leftBy (drain : α → σ → α × σ) : List α → σ → List α
  | [], _ => []
  | slot :: queue, state => (drain slot state).1 :: leftBy drain queue (drain slot state).2

theorem drainSlotsSize (drain : α → σ → α × σ) (indices : List Nat) (slots : Array α) (state : σ) :
    (drainSlots drain indices slots state).1.size = slots.size := by
  induction indices generalizing slots state with
  | nil => rfl
  | cons index indices ih =>
    cases found : slots[index]? with
    | none => simp [drainSlots, found, ih]
    | some slot => simp [drainSlots, found, ih]

theorem drainSlotsElsewhere (drain : α → σ → α × σ) {indices : List Nat} {other : Nat}
    (elsewhere : other ∉ indices) (slots : Array α) (state : σ) :
    (drainSlots drain indices slots state).1[other]? = slots[other]? := by
  induction indices generalizing slots state with
  | nil => rfl
  | cons index indices ih =>
    obtain ⟨apart, later⟩ := List.ne_and_not_mem_of_not_mem_cons elsewhere
    cases found : slots[index]? with
    | none => simp only [drainSlots, found, ih later]
    | some slot =>
      simp only [drainSlots, found, ih later]
      exact Array.getElem?_setIfInBounds_ne apart.symm

theorem drainSlotsLeft (drain : α → σ → α × σ) {indices : List Nat} (distinct : indices.Nodup)
    {slots : Array α} {queue : List α}
    (held : indices.map (fun index => slots[index]?) = queue.map some) (state : σ) :
    indices.map (fun index => (drainSlots drain indices slots state).1[index]?) =
      (leftBy drain queue state).map some := by
  induction indices generalizing slots queue state with
  | nil =>
    cases queue with
    | nil => rfl
    | cons slot queue => simp at held
  | cons index indices ih =>
    cases queue with
    | nil => simp at held
    | cons slot queue =>
      obtain ⟨here, later⟩ := heldNext distinct held
      obtain ⟨fresh, apart⟩ := List.nodup_cons.mp distinct
      have inside : index < slots.size := (Array.getElem?_eq_some_iff.mp here).1
      simp only [drainSlots, here, List.map_cons, leftBy, ih apart (later _),
        drainSlotsElsewhere drain fresh]
      simp [inside]

theorem closeSome {p pool : SlotPool α} {drain : α → σ → α × σ} {state state' : σ} :
    p.close drain state = some (pool, state') ↔
      ¬ p.free.length < p.capacity ∧
        pool = ⟨(drainSlots drain p.free p.slots state).1, p.free, true⟩ ∧
        state' = (drainSlots drain p.free p.slots state).2 := by
  by_cases waits : p.free.length < p.capacity
  · simp [close, waits]
  · simp [close, waits, eq_comm]

theorem Queue.drained {p : SlotPool α} {queue : List α} (valid : Queue p queue)
    (drain : α → σ → α × σ) (state : σ) :
    ∃ pool, p.close drain state = some (pool, drainAll drain queue state) := by
  have free : ¬ p.free.length < p.capacity := by rw [valid.whole, capacity]; omega
  exact ⟨_, closeSome.mpr ⟨free, rfl, (drainSlotsAll drain valid.distinct valid.held state).symm⟩⟩

end CommunityGraph.SlotPool
