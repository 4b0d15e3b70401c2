import CommunityGraph.Error

/-! Slots that are leased one at a time, in the order in which they became free. Closing the pool
empties every slot and ends leasing for good. -/
namespace CommunityGraph

structure SlotPool (α : Type) where
  slots : Array α
  free : List Nat
  closed : Bool
  deriving Repr

inductive Lease (α : Type) where
  | leased (index : Nat) (pool : SlotPool α)
  | refused (e : EngineError)
  | busy

namespace SlotPool
variable {α σ : Type}

def ofList (slots : List α) : SlotPool α := ⟨slots.toArray, List.range slots.length, false⟩

def capacity (p : SlotPool α) : Nat := p.slots.size

def acquire (p : SlotPool α) : Lease α :=
  if p.closed then .refused .builderClosed
  else
    match p.free with
    | [] => .busy
    | index :: rest => .leased index { p with free := rest }

def release (p : SlotPool α) (index : Nat) : SlotPool α := { p with free := p.free ++ [index] }

def get? (p : SlotPool α) (index : Nat) : Option α := p.slots[index]?

def update (p : SlotPool α) (index : Nat) (slot : α) : SlotPool α :=
  { p with slots := p.slots.setIfInBounds index slot }

def drainSlots (drain : α → σ → α × σ) : List Nat → Array α → σ → Array α × σ
  | [], slots, state => (slots, state)
  | index :: rest, slots, state =>
      match slots[index]? with
      | none => drainSlots drain rest slots state
      | some slot =>
          match drain slot state with
          | (slot, state) => drainSlots drain rest (slots.setIfInBounds index slot) state

def close (p : SlotPool α) (drain : α → σ → α × σ) (state : σ) : Option (SlotPool α × σ) :=
  if p.free.length < p.capacity then none
  else
    match drainSlots drain p.free p.slots state with
    | (slots, state) => some (⟨slots, p.free, true⟩, state)

end SlotPool

structure Leases (α : Type) where
  pool : SlotPool α
  held : List (Nat × Nat)

namespace Leases
variable {α : Type}

def ofList (slots : List α) : Leases α := ⟨.ofList slots, []⟩

def get? (l : Leases α) (hold : Nat) : Option α := (l.held.lookup hold).bind l.pool.get?

def update (l : Leases α) (hold : Nat) (slot : α) : Leases α :=
  match l.held.lookup hold with
  | none => l
  | some index => { l with pool := l.pool.update index slot }

def release (l : Leases α) (hold : Nat) : Bool × Leases α :=
  match l.held.lookup hold with
  | none => (false, l)
  | some index => (true, ⟨l.pool.release index, l.held.filter fun (other, _) => other ≠ hold⟩)

/-- Leases a slot and keeps it under `hold`; a slot that was kept there is given back. `none` while
there is no free slot. -/
def acquire (l : Leases α) (hold : Nat) : Option (Except EngineError Unit × Leases α) :=
  match l.pool.acquire with
  | .busy => none
  | .refused e => some (.error e, l)
  | .leased index pool =>
      match release ⟨pool, l.held⟩ hold with
      | (_, ⟨pool, held⟩) => some (.ok (), ⟨pool, (hold, index) :: held⟩)

end Leases
end CommunityGraph
