import Mathlib
import CommunityGraph.Proofs.Storage.Arena

/-! Allocators that share an arena. However their requests take turns, every page is cut into the ranges
that were served on it, one after the other, and a range holds what was written through its slice. -/
namespace CommunityGraph
variable {α : Type}

theorem Address.ofWordToWord {page offset : Nat} (pageSmall : page < 2 ^ 32)
    (offsetSmall : offset < 2 ^ 32) : Address.ofWord (Address.toWord ⟨page, offset⟩) = ⟨page, offset⟩ := by
  have pageWord : (UInt64.ofNat page).toNat = page :=
    UInt64.toNat_ofNat_of_lt' (by simp only [UInt64.size]; omega)
  have low : (UInt64.ofNat offset).toNat = offset :=
    UInt64.toNat_ofNat_of_lt' (by simp only [UInt64.size]; omega)
  have high : (UInt64.ofNat page <<< 32).toNat = page <<< 32 := by
    rw [UInt64.toNat_shiftLeft, pageWord]
    simp [Nat.shiftLeft_eq]
    omega
  have word : (Address.toWord ⟨page, offset⟩).toNat = page * 2 ^ 32 + offset := by
    rw [Address.toWord, UInt64.toNat_or, high, low, ← Nat.shiftLeft_add_eq_or_of_lt offsetSmall,
      Nat.shiftLeft_eq]
  have mask : (0xffffffff : UInt64).toNat = 2 ^ 32 - 1 := rfl
  simp only [Address.ofWord, UInt64.toNat_shiftRight, UInt64.toNat_and, word, mask,
    Nat.and_two_pow_sub_one_eq_mod]
  simp [Nat.shiftRight_eq_div_pow]
  omega

structure Allocation (α : Type) where
  allocator : Nat
  address : Address
  contents : List α

namespace Allocation

def length (a : Allocation α) : Nat := a.contents.length

def fill (a : Allocation α) (position : Nat) (value : α) : Allocation α :=
  { a with contents := a.contents.set position value }

def onPage (page : Nat) (served : List (Allocation α)) : List (Allocation α) :=
  served.filter fun a => a.address.page = page

def written (served : List (Allocation α)) : List α := served.flatMap contents

inductive Consecutive : Nat → List (Allocation α) → Nat → Prop where
  | nil (start : Nat) : Consecutive start [] start
  | cons {start stop : Nat} {a : Allocation α} {rest : List (Allocation α)}
      (here : a.address.offset = start) (next : Consecutive (start + a.length) rest stop) :
      Consecutive start (a :: rest) stop

section Consecutive
variable {start stop : Nat} {xs ys : List (Allocation α)} {a a' : Allocation α}

theorem onPageSnoc (page : Nat) (served : List (Allocation α)) (a : Allocation α) :
    onPage page (served ++ [a]) =
      if a.address.page = page then onPage page served ++ [a] else onPage page served := by
  by_cases here : a.address.page = page <;> simp [onPage, here]

theorem Consecutive.total (h : Consecutive start xs stop) : start + (written xs).length = stop := by
  induction h with
  | nil => rfl
  | cons _ _ ih =>
    simp only [written, List.flatMap_cons, List.length_append, length] at ih ⊢
    omega

theorem Consecutive.snoc (h : Consecutive start xs stop) (here : a.address.offset = stop) :
    Consecutive start (xs ++ [a]) (stop + a.length) := by
  induction h with
  | nil => exact .cons here (.nil _)
  | cons first _ ih => exact .cons first (ih here)

theorem Consecutive.bounds (h : Consecutive start xs stop) (member : a ∈ xs) :
    start ≤ a.address.offset ∧ a.address.offset + a.length ≤ stop := by
  induction h with
  | nil => cases member
  | @cons start stop first rest here next ih =>
    have total := next.total
    rcases List.mem_cons.mp member with rfl | later
    · omega
    · have := ih later
      omega

theorem Consecutive.ordered (h : Consecutive start xs stop) :
    xs.Pairwise fun a b => a.address.offset + a.length ≤ b.address.offset := by
  induction h with
  | nil => exact .nil
  | cons here next ih =>
    refine List.pairwise_cons.mpr ⟨fun b member => ?_, ih⟩
    rw [here]
    exact (next.bounds member).1

theorem Consecutive.offset (h : Consecutive start (xs ++ a :: ys) stop) :
    a.address.offset = start + (written xs).length := by
  induction xs generalizing start with
  | nil =>
    cases h with
    | cons here _ => exact here
  | cons first xs ih =>
    cases h with
    | cons _ next =>
      have later := ih next
      simp only [written, List.flatMap_cons, List.length_append, length] at later ⊢
      omega

theorem Consecutive.replaced (h : Consecutive start (xs ++ a :: ys) stop)
    (offset : a'.address.offset = a.address.offset) (length : a'.length = a.length) :
    Consecutive start (xs ++ a' :: ys) stop := by
  induction xs generalizing start with
  | nil =>
    cases h with
    | cons here next => exact .cons (offset.trans here) (length ▸ next)
  | cons first xs ih =>
    cases h with
    | cons here next => exact .cons here (ih next)

end Consecutive

def Cuts (served : List (Allocation α)) (pages : Array (Array α)) : Prop :=
  ∀ (page : Nat) (values : Array α), pages[page]? = some values →
    Consecutive 0 (onPage page served) values.size ∧ values.toList = written (onPage page served)

theorem Cuts.snoc {served : List (Allocation α)} {before after : Array (Array α)}
    {a : Allocation α} {old : Array α} (cuts : Cuts served before)
    (start : before[a.address.page]? = some old ∨ onPage a.address.page served = [] ∧ old = #[])
    (place : a.address.offset = old.size)
    (here : after[a.address.page]? = some (old ++ a.contents.toArray))
    (others : ∀ page, page ≠ a.address.page → after[page]? = before[page]?) :
    Cuts (served ++ [a]) after := by
  intro page values found
  rw [onPageSnoc]
  by_cases same : a.address.page = page
  · subst same
    obtain rfl : old ++ a.contents.toArray = values := Option.some.inj (here.symm.trans found)
    have was : Consecutive 0 (onPage a.address.page served) old.size ∧
        old.toList = written (onPage a.address.page served) := by
      rcases start with before | ⟨none, rfl⟩
      · exact cuts _ old before
      · rw [none]
        exact ⟨.nil 0, rfl⟩
    rw [if_pos rfl]
    refine ⟨?_, ?_⟩
    · have further := was.1.snoc place
      simpa [length] using further
    · have contents := was.2
      simp only [written] at contents
      simp [written, contents]
  · rw [if_neg same]
    exact cuts page values ((others page (Ne.symm same)).symm.trans found)

theorem Cuts.rewritten {front rest : List (Allocation α)} {before after : Array (Array α)}
    {a : Allocation α} {position : Nat} {value : α} (cuts : Cuts (front ++ a :: rest) before)
    (inside : position < a.length)
    (here : after[a.address.page]? = before[a.address.page]?.map fun page =>
      page.setIfInBounds (a.address.offset + position) value)
    (others : ∀ page, page ≠ a.address.page → after[page]? = before[page]?) :
    Cuts (front ++ a.fill position value :: rest) after := by
  intro page values found
  by_cases same : a.address.page = page
  · subst same
    rw [here] at found
    obtain ⟨old, was, rfl⟩ := Option.map_eq_some_iff.mp found
    obtain ⟨consecutive, contents⟩ := cuts _ old was
    have split : ∀ b : Allocation α, b.address.page = a.address.page →
        onPage a.address.page (front ++ b :: rest) =
          onPage a.address.page front ++ b :: onPage a.address.page rest := by
      intro b same
      simp [onPage, List.filter_append, same]
    rw [split a rfl] at consecutive contents
    rw [split (a.fill position value) rfl]
    have offset := consecutive.offset
    rw [Nat.zero_add] at offset
    refine ⟨?_, ?_⟩
    · rw [Array.size_setIfInBounds]
      exact consecutive.replaced rfl (by simp [length, fill])
    · rw [Array.toList_setIfInBounds, contents, offset]
      simp only [written, List.flatMap_append, List.flatMap_cons, fill]
      rw [List.set_append_right _ _ (Nat.le_add_right _ _), Nat.add_sub_cancel_left,
        List.set_append_left _ _ inside]
  · have apart : ∀ b : Allocation α, b.address.page = a.address.page →
        onPage page (front ++ b :: rest) = onPage page front ++ onPage page rest := by
      intro b there
      simp [onPage, List.filter_append, there, same]
    have was := cuts page values ((others page (Ne.symm same)).symm.trans found)
    rw [apart a rfl] at was
    rw [apart (a.fill position value) rfl]
    exact was

def shape (a : Allocation α) : Nat × Address × Nat := (a.allocator, a.address, a.length)

theorem shapeFill (a : Allocation α) (position : Nat) (value : α) :
    (a.fill position value).shape = a.shape := by
  simp [shape, fill, length]

theorem replacedAt {served : List (Allocation α)} {place : Nat} {a : Allocation α}
    (found : served[place]? = some a) :
    ∃ front rest, served = front ++ a :: rest ∧ ∀ b, served.set place b = front ++ b :: rest := by
  obtain ⟨inside, rfl⟩ := List.getElem?_eq_some_iff.mp found
  refine ⟨served.take place, served.drop (place + 1), by simp, fun b => ?_⟩
  rw [List.set_eq_take_append_cons_drop, if_pos inside]

def Headed (pageSize capacity : Nat) (ranges : List (Allocation α)) : Prop :=
  ∃ first rest, ranges = first :: rest ∧ capacity = max pageSize first.length

def Owned (served : List (Allocation α)) : Prop :=
  ∀ a ∈ served, ∀ b ∈ served, a.address.page = b.address.page → a.allocator = b.allocator

theorem Owned.snoc {served : List (Allocation α)} {a : Allocation α} (owned : Owned served)
    (mine : ∀ b ∈ served, b.address.page = a.address.page → b.allocator = a.allocator) :
    Owned (served ++ [a]) := by
  intro b here c there same
  rcases List.mem_append.mp here with before | last <;>
    rcases List.mem_append.mp there with before' | last'
  · exact owned b before c before' same
  · obtain rfl := List.mem_singleton.mp last'
    exact mine b before same
  · obtain rfl := List.mem_singleton.mp last
    exact (mine c before' same.symm).symm
  · rw [List.mem_singleton.mp last, List.mem_singleton.mp last']

theorem Headed.snoc {pageSize capacity : Nat} {ranges : List (Allocation α)}
    (headed : Headed pageSize capacity ranges) (a : Allocation α) :
    Headed pageSize capacity (ranges ++ [a]) := by
  obtain ⟨first, rest, rfl, same⟩ := headed
  exact ⟨first, rest ++ [a], rfl, same⟩

theorem Headed.reshaped {pageSize capacity page : Nat} {served served' : List (Allocation α)}
    (headed : Headed pageSize capacity (onPage page served))
    (same : served.map shape = served'.map shape) :
    Headed pageSize capacity (onPage page served') := by
  have ranges : ∀ xs : List (Allocation α), (onPage page xs).map shape =
      (xs.map shape).filter fun range => range.2.1.page = page := fun xs => by
    rw [List.filter_map]
    rfl
  obtain ⟨first, rest, found, size⟩ := headed
  have shapes : (onPage page served').map shape = shape first :: rest.map shape := by
    rw [ranges, ← same, ← ranges, found, List.map_cons]
  obtain ⟨first', rest', found', same', -⟩ := List.map_eq_cons_iff.mp shapes
  simp only [shape, Prod.mk.injEq] at same'
  exact ⟨first', rest', found', by rw [size, same'.2.2]⟩

structure Tiles (pageSize : Nat) (served : List (Allocation α)) (pages : Array (Array α)) : Prop where
  decoded : ∀ a ∈ served, Address.ofWord a.address.toWord = a.address
  inside : ∀ a ∈ served, ∃ values, pages[a.address.page]? = some values ∧
    a.address.offset + a.length ≤ values.size
  apart : served.Pairwise fun a b => a.address.page = b.address.page →
    a.address.offset + a.length ≤ b.address.offset
  cuts : Cuts served pages
  owned : Owned served
  alone : served.Pairwise fun a b => a.address.page = b.address.page →
    (pageSize < a.length → b.length = 0) ∧ (pageSize < b.length → a.length = 0)
  holds : ∀ a ∈ served, Arena.slice? pages a.address a.length = some a.contents

section Tiles
variable {served : List (Allocation α)} {pages : Array (Array α)} {a : Allocation α}
  {values : Array α} {pageSize capacity : Nat}

theorem Cuts.within (cuts : Cuts served pages) (member : a ∈ served)
    (found : pages[a.address.page]? = some values) : a.address.offset + a.length ≤ values.size :=
  ((cuts _ _ found).1.bounds (by simp [onPage, member])).2

theorem Cuts.apart (cuts : Cuts served pages)
    (inside : ∀ a ∈ served, a.address.page < pages.size) :
    served.Pairwise fun a b => a.address.page = b.address.page →
      a.address.offset + a.length ≤ b.address.offset := by
  refine List.pairwise_iff_forall_sublist.mpr fun {a b} among same => ?_
  have member : a ∈ served := among.subset (by simp)
  have ordered := (cuts _ _ (Array.getElem?_eq_getElem (inside a member))).1.ordered
  refine List.pairwise_iff_forall_sublist.mp (List.pairwise_filter.mp ordered) among ?_ ?_
  · simp
  · simp [same]

theorem Headed.filled (headed : Headed (max pageSize 1) capacity (onPage a.address.page served))
    (cut : Consecutive 0 (onPage a.address.page served) values.size) (short : values.size ≤ capacity)
    (member : a ∈ served) (long : pageSize < a.length) : values.size ≤ a.length := by
  obtain ⟨first, rest, ranges, size⟩ := headed
  have here : a ∈ onPage a.address.page served := by simp [onPage, member]
  have stop := (cut.bounds here).2
  rw [ranges] at here cut
  rcases List.mem_cons.mp here with rfl | later
  · omega
  · cases cut with
    | cons _ next =>
      have := (next.bounds later).1
      omega

theorem Cuts.holds (cuts : Cuts served pages) (member : a ∈ served)
    (found : pages[a.address.page]? = some values) :
    Arena.slice? pages a.address a.length = some a.contents := by
  have within := cuts.within member found
  obtain ⟨consecutive, contents⟩ := cuts _ _ found
  obtain ⟨front, rest, ranges⟩ := List.append_of_mem
    (show a ∈ onPage a.address.page served by simp [onPage, member])
  rw [ranges] at consecutive contents
  have offset := consecutive.offset
  rw [Nat.zero_add] at offset
  have slice : Arena.slice? pages a.address a.length =
      some (values.extract a.address.offset (a.address.offset + a.length)).toList := by
    simp only [Arena.slice?, found, if_pos within]
  rw [slice, Array.toList_extract, contents, offset]
  simp [written, List.extract_eq_take_drop, Allocation.length]

end Tiles
end Allocation

namespace Arena

instance (arena : Arena α) (length : Nat) : Decidable (arena.Affordable length) :=
  inferInstanceAs (Decidable (_ ≤ _))

end Arena

inductive ArenaRequest (α : Type) where
  | allocate (allocator length : Nat)
  /-- Writes through the slice that the allocator lends: that of its latest range, until it is asked
  again. -/
  | write (allocator position : Nat) (value : α)
  | freeze (allocator : Nat)

structure Lending (α : Type) where
  served : List (Allocation α)
  lent : Nat → Option Nat

namespace Lending

def lend (lending : Lending α) (index : Nat) (address : Address) (contents : List α) : Lending α :=
  ⟨lending.served ++ [⟨index, address, contents⟩],
    Function.update lending.lent index (some lending.served.length)⟩

def withdraw (lending : Lending α) (index : Nat) : Lending α :=
  { lending with lent := Function.update lending.lent index none }

def fill (lending : Lending α) (place : Nat) (a : Allocation α) (position : Nat) (value : α) :
    Lending α :=
  { lending with served := lending.served.set place (a.fill position value) }

def slice? (lending : Lending α) (index : Nat) : Option (Nat × Allocation α) := do
  let place ← lending.lent index
  let a ← lending.served[place]?
  some (place, a)

theorem sliceServed {lending : Lending α} {index place : Nat} {a : Allocation α}
    (found : lending.slice? index = some (place, a)) :
    lending.lent index = some place ∧ lending.served[place]? = some a := by
  simp only [slice?, Option.bind_eq_bind, Option.bind_eq_some_iff, Option.some.injEq,
    Prod.mk.injEq] at found
  obtain ⟨_, lent, _, there, rfl, rfl⟩ := found
  exact ⟨lent, there⟩

def ranges (lending : Lending α) : List (Nat × Nat) :=
  lending.served.map fun a => (a.allocator, a.length)

theorem rangesWithdraw (lending : Lending α) (index : Nat) :
    (lending.withdraw index).ranges = lending.ranges := rfl

theorem rangesLend (lending : Lending α) (index : Nat) (address : Address) (contents : List α) :
    (lending.lend index address contents).ranges = lending.ranges ++ [(index, contents.length)] := by
  simp [ranges, lend, Allocation.length]

theorem rangesFill {lending : Lending α} {place : Nat} {a : Allocation α}
    (found : lending.served[place]? = some a) (position : Nat) (value : α) :
    (lending.fill place a position value).ranges = lending.ranges := by
  obtain ⟨front, rest, split, filled⟩ := Allocation.replacedAt found
  rw [ranges, ranges, fill, filled, split]
  simp [Allocation.fill, Allocation.length]

end Lending

structure ArenaSession (α : Type) extends Lending α where
  arena : Arena α
  allocators : Nat → Allocator

namespace ArenaSession
open Allocation

def opened (pageSize elementBytes : Nat) : ArenaSession α :=
  ⟨⟨[], fun _ => none⟩, .make pageSize elementBytes, fun _ => .empty⟩

def serve (zero : α) (session : ArenaSession α) : ArenaRequest α → ArenaSession α
  | .allocate index length =>
      match session.arena.allocate (session.allocators index) length zero with
      | (.error _, allocator, arena) =>
          ⟨session.withdraw index, arena, Function.update session.allocators index allocator⟩
      | (.ok address, allocator, arena) =>
          ⟨session.lend index address (List.replicate length zero), arena,
            Function.update session.allocators index allocator⟩
  | .write index position value =>
      match session.slice? index with
      | none => session
      | some (place, a) =>
          if position < a.length then
            ⟨session.fill place a position value,
              session.arena.write ⟨a.address.page, a.address.offset + position⟩ [value],
              session.allocators⟩
          else session
  | .freeze index =>
      ⟨session.withdraw index, session.arena,
        Function.update session.allocators index (session.allocators index).freeze⟩

def serveAll (zero : α) (session : ArenaSession α) (requests : List (ArenaRequest α)) :
    ArenaSession α :=
  requests.foldl (serve zero) session

structure Fills (session : ArenaSession α) (index page : Nat) : Prop where
  inside : page < session.arena.pages.size
  owner : ∀ a ∈ session.served, a.address.page = page → a.allocator = index
  capacity : Headed session.arena.pageSize (session.allocators index).capacity
    (onPage page session.served)
  affordable : (session.allocators index).capacity * session.arena.elementBytes ≤ Memory.maxBlock

structure Sound (session : ArenaSession α) : Prop where
  cuts : Cuts session.served session.arena.pages
  inside : ∀ a ∈ session.served, a.address.page < session.arena.pages.size
  owned : Owned session.served
  headed : ∀ (page : Nat) (values : Array α), session.arena.pages[page]? = some values →
    ∃ capacity, Headed session.arena.pageSize capacity (onPage page session.served) ∧
      values.size ≤ capacity
  fills : ∀ index page, (session.allocators index).page = some page → session.Fills index page

theorem openedSound (pageSize elementBytes : Nat) :
    (opened pageSize elementBytes : ArenaSession α).Sound where
  cuts page values found := by simp [opened, Arena.make] at found
  inside a member := by cases member
  owned a member := by cases member
  headed page values found := by simp [opened, Arena.make] at found
  fills index page filling := by cases filling

section Steps
variable {session : ArenaSession α} {index page length : Nat} {zero : α}

theorem Sound.on (sound : session.Sound) (index : Nat) :
    (session.allocators index).On session.arena.pages :=
  fun page filling => (sound.fills index page filling).inside

theorem Fills.sole {other : Nat} (fills : session.Fills index page)
    (others : session.Fills other page) : index = other := by
  obtain ⟨first, rest, ranges, -⟩ := fills.capacity
  have member : first ∈ onPage page session.served := by simp [ranges]
  obtain ⟨served, here⟩ := List.mem_filter.mp member
  have there : first.address.page = page := by simpa using here
  exact (fills.owner first served there).symm.trans (others.owner first served there)

theorem Sound.released (sound : session.Sound) (index : Nat) (lent : Nat → Option Nat) :
    Sound ⟨⟨session.served, lent⟩, session.arena,
      Function.update session.allocators index .empty⟩ where
  cuts := sound.cuts
  inside := sound.inside
  owned := sound.owned
  headed := sound.headed
  fills other page filling := by
    by_cases same : other = index
    · subst same
      simp [Allocator.empty] at filling
    · simp only [Function.update_of_ne same] at filling
      obtain ⟨inside, owner, capacity, affordable⟩ := sound.fills other page filling
      exact ⟨inside, owner, by simpa [same] using capacity, by simpa [same] using affordable⟩

theorem Sound.continued (sound : session.Sound) {old : Array α} (lent : Nat → Option Nat)
    (filling : (session.allocators index).page = some page)
    (found : session.arena.pages[page]? = some old)
    (room : length ≤ (session.allocators index).capacity - old.size) (zero : α) :
    Sound ⟨⟨session.served ++ [⟨index, ⟨page, old.size⟩, List.replicate length zero⟩], lent⟩,
      session.arena.extend page length zero, session.allocators⟩ := by
  have fills := sound.fills index page filling
  have grown : (session.arena.extend page length zero).pages[page]? =
      some (old ++ (List.replicate length zero).toArray) := by
    simp [Arena.extend, Array.getElem?_modify, found]
  have others : ∀ other, other ≠ page →
      (session.arena.extend page length zero).pages[other]? = session.arena.pages[other]? := by
    intro other apart
    simp [Arena.extend, Array.getElem?_modify, Ne.symm apart]
  refine ⟨sound.cuts.snoc (.inl found) rfl grown others, ?_, sound.owned.snoc fills.owner, ?_, ?_⟩
  · intro a member
    simp only [Arena.extend, Array.size_modify]
    rcases List.mem_append.mp member with before | last
    · exact sound.inside a before
    · obtain rfl := List.mem_singleton.mp last
      exact fills.inside
  · intro other values there
    rw [onPageSnoc]
    by_cases same : page = other
    · subst same
      obtain rfl : old ++ (List.replicate length zero).toArray = values :=
        Option.some.inj (grown.symm.trans there)
      obtain ⟨capacity, headed, short⟩ := sound.headed page old found
      rw [if_pos rfl]
      refine ⟨max capacity (session.allocators index).capacity, ?_, ?_⟩
      · obtain ⟨first, rest, ranges, size⟩ := headed
        obtain ⟨first', rest', ranges', size'⟩ := fills.capacity
        obtain ⟨rfl, -⟩ := List.cons.inj (ranges.symm.trans ranges')
        rw [size, size', Nat.max_self]
        exact Headed.snoc ⟨first, rest, ranges, rfl⟩ _
      · simp
        omega
    · rw [if_neg same]
      exact sound.headed other values ((others other (Ne.symm same)).symm.trans there)
  · intro other page' filling'
    have was := sound.fills other page' filling'
    refine ⟨by simpa [Arena.extend] using was.inside, fun a member same => ?_, ?_, was.affordable⟩
    · rcases List.mem_append.mp member with before | last
      · exact was.owner a before same
      · obtain rfl := List.mem_singleton.mp last
        obtain rfl : page = page' := same
        exact fills.sole was
    · rw [onPageSnoc]
      split
      · exact was.capacity.snoc _
      · exact was.capacity

theorem Sound.begun (sound : session.Sound) (index : Nat) (lent : Nat → Option Nat)
    (affordable : session.arena.Affordable length) (zero : α) :
    Sound ⟨⟨session.served ++ [⟨index, ⟨session.arena.pages.size, 0⟩, List.replicate length zero⟩],
        lent⟩,
      { session.arena with pages := session.arena.pages.push (Array.replicate length zero) },
      Function.update session.allocators index
        ⟨some session.arena.pages.size, max session.arena.pageSize length⟩⟩ := by
  have elsewhere : ∀ a ∈ session.served, a.address.page ≠ session.arena.pages.size :=
    fun a member => Nat.ne_of_lt (sound.inside a member)
  have fresh : onPage session.arena.pages.size session.served = [] :=
    List.filter_eq_nil_iff.mpr fun a member => by simpa using elsewhere a member
  have pushed : (session.arena.pages.push (Array.replicate length zero))[session.arena.pages.size]? =
      some (#[] ++ (List.replicate length zero).toArray) := by simp
  have others : ∀ other, other ≠ session.arena.pages.size →
      (session.arena.pages.push (Array.replicate length zero))[other]? =
        session.arena.pages[other]? := by
    intro other apart
    rw [Array.getElem?_push, if_neg apart]
  have capacity : Headed session.arena.pageSize (max session.arena.pageSize length)
      (onPage session.arena.pages.size (session.served ++
        [⟨index, ⟨session.arena.pages.size, 0⟩, List.replicate length zero⟩])) := by
    rw [onPageSnoc, if_pos rfl, fresh]
    exact ⟨_, [], rfl, by simp [Allocation.length]⟩
  refine ⟨sound.cuts.snoc (.inr ⟨fresh, rfl⟩) rfl pushed others, ?_,
    sound.owned.snoc fun a member same => absurd same (elsewhere a member), ?_, ?_⟩
  · intro a member
    rw [Array.size_push]
    rcases List.mem_append.mp member with before | last
    · exact Nat.lt_succ_of_lt (sound.inside a before)
    · obtain rfl := List.mem_singleton.mp last
      exact Nat.lt_succ_self _
  · intro other values there
    by_cases same : other = session.arena.pages.size
    · subst same
      obtain rfl := Option.some.inj (pushed.symm.trans there)
      exact ⟨_, capacity, by simp⟩
    · rw [onPageSnoc, if_neg (Ne.symm same)]
      exact sound.headed other values ((others other same).symm.trans there)
  · intro other page filling
    by_cases same : other = index
    · subst same
      simp only [Function.update_self, Option.some.injEq] at filling
      subst filling
      refine ⟨by simp, fun a member here => ?_, by simpa using capacity,
        by simpa [Arena.Affordable] using affordable⟩
      rcases List.mem_append.mp member with before | last
      · exact absurd here (elsewhere a before)
      · obtain rfl := List.mem_singleton.mp last
        rfl
    · simp only [Function.update_of_ne same] at filling
      have was := sound.fills other page filling
      have apart : session.arena.pages.size ≠ page := Nat.ne_of_gt was.inside
      refine ⟨?_, fun a member here => ?_, ?_, by simpa [same] using was.affordable⟩
      · rw [Array.size_push]
        exact Nat.lt_succ_of_lt was.inside
      · rcases List.mem_append.mp member with before | last
        · exact was.owner a before here
        · obtain rfl := List.mem_singleton.mp last
          exact absurd here apart
      · rw [onPageSnoc, if_neg apart]
        simpa [same] using was.capacity

theorem Sound.written (sound : session.Sound) {place position : Nat} {a : Allocation α}
    (found : session.served[place]? = some a) (inside : position < a.length) (value : α) :
    Sound ⟨session.fill place a position value,
      session.arena.write ⟨a.address.page, a.address.offset + position⟩ [value],
      session.allocators⟩ := by
  obtain ⟨front, rest, split, filled⟩ := replacedAt found
  have shapes : (front ++ a.fill position value :: rest).map shape = session.served.map shape := by
    rw [split, List.map_append, List.map_append, List.map_cons, List.map_cons, shapeFill]
  have known : ∀ b ∈ front ++ a.fill position value :: rest,
      ∃ c ∈ session.served, shape c = shape b := by
    intro b member
    have there := List.mem_map_of_mem (f := shape) member
    rw [shapes] at there
    exact List.mem_map.mp there
  rw [Lending.fill, filled]
  refine ⟨?_, fun b member => ?_, fun b here c there same => ?_, fun page values there => ?_,
    fun other page filling => ?_⟩
  · refine Cuts.rewritten (split ▸ sound.cuts) inside ?_ fun page apart => ?_
    · simp [Arena.write, Arena.writeFrom, Array.getElem?_modify]
    · simp [Arena.write, Array.getElem?_modify, Ne.symm apart]
  · obtain ⟨c, served, same⟩ := known b member
    simp only [shape, Prod.mk.injEq] at same
    simpa [Arena.write, same.2.1] using sound.inside c served
  · obtain ⟨b', served, same'⟩ := known b here
    obtain ⟨c', served', same''⟩ := known c there
    simp only [shape, Prod.mk.injEq] at same' same''
    rw [← same'.1, ← same''.1]
    exact sound.owned b' served c' served' (by rw [same'.2.1, same''.2.1, same])
  · obtain ⟨old, was, size⟩ : ∃ old, session.arena.pages[page]? = some old ∧ values.size = old.size := by
      simp only [Arena.write, Array.getElem?_modify] at there
      split at there
      · obtain ⟨old, was, rfl⟩ := Option.map_eq_some_iff.mp there
        exact ⟨old, was, by simp [Arena.writeFrom]⟩
      · exact ⟨values, there, rfl⟩
    obtain ⟨capacity, headed, short⟩ := sound.headed page old was
    exact ⟨capacity, headed.reshaped shapes.symm, size ▸ short⟩
  · obtain ⟨within, owner, capacity, affordable⟩ := sound.fills other page filling
    refine ⟨by simpa [Arena.write] using within, fun b member same => ?_, capacity.reshaped shapes.symm,
      affordable⟩
    obtain ⟨c, served, same'⟩ := known b member
    simp only [shape, Prod.mk.injEq] at same'
    rw [← same'.1]
    exact owner c served (by rw [same'.2.1, same])

theorem Sound.serve (sound : session.Sound) (zero : α) (request : ArenaRequest α) :
    (session.serve zero request).Sound := by
  cases request with
  | allocate index length =>
    have ended := Arena.allocateAllotted (sound.on index) length zero
    simp only [ArenaSession.serve]
    generalize session.arena.allocate (session.allocators index) length zero = answer at ended
    cases ended with
    | refused => exact sound.released index _
    | continued filling found room =>
      simp only [Function.update_eq_self]
      exact sound.continued _ filling found room zero
    | opened affordable => exact sound.begun index _ affordable zero
  | write index position value =>
    simp only [ArenaSession.serve]
    cases found : session.slice? index with
    | none => exact sound
    | some slice =>
      obtain ⟨place, a⟩ := slice
      dsimp only
      split
      · rename_i inside
        exact sound.written (Lending.sliceServed found).2 inside value
      · exact sound
  | freeze index => exact sound.released index _

def granted (arena : Arena α) (requests : List (ArenaRequest α)) : List (Nat × Nat) :=
  requests.filterMap fun
    | .allocate index length => if arena.Affordable length then some (index, length) else none
    | .write _ _ _ => none
    | .freeze _ => none

def Alike (arena arena' : Arena α) : Prop :=
  arena'.pageSize = arena.pageSize ∧ arena'.elementBytes = arena.elementBytes

theorem Alike.granted {arena arena' : Arena α} (alike : Alike arena arena')
    (requests : List (ArenaRequest α)) :
    granted arena' requests = ArenaSession.granted arena requests := by
  have same : ∀ length, arena'.Affordable length ↔ arena.Affordable length := fun length => by
    rw [Arena.Affordable, alike.1, alike.2, Arena.Affordable]
  simp only [ArenaSession.granted, same]

theorem Fills.roomAffordable {old : Array α} (fills : session.Fills index page)
    (room : length ≤ (session.allocators index).capacity - old.size) :
    session.arena.Affordable length := by
  obtain ⟨first, rest, -, size⟩ := fills.capacity
  have larger : max session.arena.pageSize length ≤ (session.allocators index).capacity := by omega
  exact Nat.le_trans (Nat.mul_le_mul_right _ larger) fills.affordable

theorem Sound.serveGrants (sound : session.Sound) (zero : α) (request : ArenaRequest α) :
    Alike session.arena (session.serve zero request).arena ∧
      (session.serve zero request).ranges = session.ranges ++ granted session.arena [request] := by
  cases request with
  | allocate index length =>
    have ended := Arena.allocateAllotted (sound.on index) length zero
    simp only [ArenaSession.serve]
    generalize session.arena.allocate (session.allocators index) length zero = answer at ended
    cases ended with
    | refused costly => exact ⟨⟨rfl, rfl⟩, by simp [Lending.rangesWithdraw, granted, costly]⟩
    | continued filling found room =>
      have affordable := (sound.fills index _ filling).roomAffordable room
      exact ⟨⟨rfl, rfl⟩, by simp [Lending.rangesLend, granted, affordable]⟩
    | opened affordable =>
      exact ⟨⟨rfl, rfl⟩, by simp [Lending.rangesLend, granted, affordable]⟩
  | write index position value =>
    simp only [ArenaSession.serve]
    cases found : session.slice? index with
    | none => exact ⟨⟨rfl, rfl⟩, by simp [granted]⟩
    | some slice =>
      obtain ⟨place, a⟩ := slice
      dsimp only
      split
      · have same := Lending.rangesFill (Lending.sliceServed found).2 position value
        exact ⟨⟨rfl, rfl⟩, by simp [same, granted]⟩
      · exact ⟨⟨rfl, rfl⟩, by simp [granted]⟩
  | freeze index => exact ⟨⟨rfl, rfl⟩, by simp [Lending.rangesWithdraw, granted, ArenaSession.serve]⟩

theorem Sound.serveAllGrants (sound : session.Sound) (zero : α) (requests : List (ArenaRequest α)) :
    Alike session.arena (session.serveAll zero requests).arena ∧
      (session.serveAll zero requests).ranges =
        session.ranges ++ granted session.arena requests := by
  induction requests generalizing session with
  | nil => exact ⟨⟨rfl, rfl⟩, by simp [ArenaSession.serveAll, granted]⟩
  | cons request requests ih =>
    obtain ⟨alike, one⟩ := sound.serveGrants zero request
    obtain ⟨alike', others⟩ := ih (sound.serve zero request)
    refine ⟨⟨alike'.1.trans alike.1, alike'.2.trans alike.2⟩, ?_⟩
    have split : granted session.arena (request :: requests) =
        granted session.arena [request] ++ granted session.arena requests := by
      rw [← List.singleton_append, granted, List.filterMap_append]
      rfl
    rw [split, ← alike.granted requests, ← List.append_assoc, ← one]
    exact others

end Steps

theorem Sound.tiles {session : ArenaSession α} {pageSize : Nat} (sound : session.Sound)
    (size : session.arena.pageSize = max pageSize 1)
    (narrow : ∀ a ∈ session.served, a.address.page < 2 ^ 32 ∧ a.address.offset < 2 ^ 32) :
    Tiles pageSize session.served session.arena.pages := by
  have found : ∀ a ∈ session.served, ∃ values,
      session.arena.pages[a.address.page]? = some values :=
    fun a member => ⟨_, Array.getElem?_eq_getElem (sound.inside a member)⟩
  have apart := sound.cuts.apart sound.inside
  refine ⟨fun a member => Address.ofWordToWord (narrow a member).1 (narrow a member).2,
    fun a member => ?_, apart, sound.cuts, sound.owned, ?_, fun a member => ?_⟩
  · obtain ⟨values, there⟩ := found a member
    exact ⟨values, there, sound.cuts.within member there⟩
  · refine List.pairwise_iff_forall_sublist.mpr fun {a b} among same => ?_
    have ordered := List.pairwise_iff_forall_sublist.mp apart among same
    have first : a ∈ session.served := among.subset (by simp)
    have second : b ∈ session.served := among.subset (by simp)
    obtain ⟨values, there⟩ := found b second
    obtain ⟨capacity, headed, short⟩ := sound.headed _ _ there
    have cut := (sound.cuts _ _ there).1
    have stop := sound.cuts.within second there
    rw [size] at headed
    refine ⟨fun long => ?_, fun long => ?_⟩
    · rw [← same] at headed cut
      have := headed.filled cut short first long
      omega
    · have := headed.filled cut short second long
      omega
  · obtain ⟨values, there⟩ := found a member
    exact sound.cuts.holds member there

end ArenaSession
end CommunityGraph
