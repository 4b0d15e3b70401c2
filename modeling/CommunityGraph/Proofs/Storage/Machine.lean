import Mathlib.Data.List.Basic
import CommunityGraph.Storage.Machine

/-! Blocks of memory are had one after the other, until one is too long or refused. -/
namespace CommunityGraph.Machine
variable {m : Machine} {inUse left : Nat} {blocks later : List Nat} {e : EngineError}

inductive Lends (m : Machine) : Nat → List Nat → Prop where
  | nil (inUse : Nat) : Lends m inUse []
  | cons {inUse bytes : Nat} {blocks : List Nat} (asked : bytes ≤ Memory.maxRequest)
      (had : bytes = 0 ∨ m.lends inUse bytes = true) (rest : Lends m (inUse + bytes) blocks) :
      Lends m inUse (bytes :: blocks)

inductive Refuses (m : Machine) : Nat → List Nat → EngineError → Prop where
  | overflow {inUse bytes : Nat} {blocks : List Nat} (beyond : Memory.maxRequest < bytes) :
      Refuses m inUse (bytes :: blocks) .capacityOverflow
  | exhausted {inUse bytes : Nat} {blocks : List Nat} (asked : bytes ≤ Memory.maxRequest)
      (some : 0 < bytes) (none : m.lends inUse bytes = false) :
      Refuses m inUse (bytes :: blocks) (.outOfMemory bytes)
  | later {inUse bytes : Nat} {blocks : List Nat} {e : EngineError}
      (asked : bytes ≤ Memory.maxRequest) (had : bytes = 0 ∨ m.lends inUse bytes = true)
      (rest : Refuses m (inUse + bytes) blocks e) : Refuses m inUse (bytes :: blocks) e

theorem reserveAppend (m : Machine) (inUse : Nat) (blocks later : List Nat) :
    m.reserve inUse (blocks ++ later) =
      m.reserve inUse blocks >>= fun inUse => m.reserve inUse later := by
  induction blocks generalizing inUse with
  | nil => rfl
  | cons bytes blocks ih =>
    rw [List.cons_append, reserve, reserve, ih]
    split_ifs <;> rfl

theorem reserveOk (ok : m.reserve inUse blocks = .ok left) : Lends m inUse blocks := by
  induction blocks generalizing inUse with
  | nil => exact .nil inUse
  | cons bytes blocks ih =>
    rw [reserve] at ok
    split_ifs at ok with beyond had
    exact .cons (Nat.not_lt.mp beyond) (by simpa using had) (ih ok)

theorem reserveError (failed : m.reserve inUse blocks = .error e) : Refuses m inUse blocks e := by
  induction blocks generalizing inUse with
  | nil => cases failed
  | cons bytes blocks ih =>
    rw [reserve] at failed
    split_ifs at failed with beyond had
    · cases failed
      exact .overflow beyond
    · exact .later (Nat.not_lt.mp beyond) (by simpa using had) (ih failed)
    · cases failed
      obtain ⟨some, none⟩ : ¬ bytes = 0 ∧ m.lends inUse bytes = false := by simpa using had
      exact .exhausted (Nat.not_lt.mp beyond) (Nat.pos_of_ne_zero some) none

theorem Lends.reserve (lends : Lends m inUse blocks) :
    m.reserve inUse blocks = .ok (blocks.foldl (· + ·) inUse) := by
  induction lends with
  | nil => rfl
  | cons asked had _ ih =>
    rw [Machine.reserve, if_neg (Nat.not_lt.mpr asked), if_pos (by simpa using had), ih,
      List.foldl_cons]

theorem Lends.asked (lends : Lends m inUse blocks) : ∀ bytes ∈ blocks, bytes ≤ Memory.maxRequest := by
  induction lends with
  | nil => simp
  | cons asked _ _ ih => simpa using ⟨asked, ih⟩

theorem ampleLends (asked : ∀ bytes ∈ blocks, bytes ≤ Memory.maxRequest) (inUse : Nat) :
    Lends .ample inUse blocks := by
  induction blocks generalizing inUse with
  | nil => exact .nil inUse
  | cons bytes blocks ih =>
    obtain ⟨first, rest⟩ := List.forall_mem_cons.mp asked
    exact .cons first (.inr rfl) (ih rest _)

theorem ampleRefuses (refuses : Refuses .ample inUse blocks e) :
    e = .capacityOverflow ∧ ∃ bytes ∈ blocks, Memory.maxRequest < bytes := by
  generalize lender : Machine.ample = m at refuses
  induction refuses with
  | overflow beyond => exact ⟨rfl, _, by simp, beyond⟩
  | exhausted _ _ none =>
    subst lender
    cases none
  | later _ _ _ ih =>
    obtain ⟨same, bytes, member, beyond⟩ := ih
    exact ⟨same, bytes, List.mem_cons_of_mem _ member, beyond⟩

end CommunityGraph.Machine
