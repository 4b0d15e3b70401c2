import CommunityGraph.Proofs.Staging.LocalBuffer
import CommunityGraph.Proofs.Staging.Walk

/-! Several local buffers in front of one shared buffer. Whatever was added to one of them either waits
there or has arrived in the list of its source, behind what was added to it for that source before. -/
namespace CommunityGraph
variable {α : Type}

namespace AdjacencyBuffer
open StagedEntry

def rows (b : AdjacencyBuffer α) (node : Nat) : List (Row α) :=
  Row.ofColumns (b.staged node).1 (b.staged node).2

section Reading
variable {nodeCount count : Nat} {entries : List (StagedEntry α)} {b : AdjacencyBuffer α}

theorem Holds.list (holds : Holds nodeCount count entries b) {node : Nat} (inside : node < nodeCount) :
    ∃ page list, b.pages[node / pageNodes]? = some page ∧
      page.lists[node % pageNodes]? = some list := by
  have nodes : pageNodes = 4096 := rfl
  have within : node / pageNodes < b.pages.size := by
    rw [holds.pages, ltCeilDiv (by decide), nodes]
    omega
  have page := Array.getElem?_eq_getElem within
  have here : node % pageNodes < b.pages[node / pageNodes].lists.size := by
    rw [holds.lists _ _ page, nodes]
    omega
  exact ⟨_, _, page, Array.getElem?_eq_getElem here⟩

theorem Holds.holdsNode (holds : Holds nodeCount count entries b) {node : Nat}
    (inside : node < nodeCount) : b.holds node = true := by
  obtain ⟨page, list, found, here⟩ := holds.list inside
  obtain ⟨small, -⟩ := Array.getElem?_eq_some_iff.mp here
  simp [AdjacencyBuffer.holds, found, StagedPage.nodeCount, small]

theorem Holds.rows (holds : Holds nodeCount count entries b) {node : Nat} (inside : node < nodeCount) :
    b.rows node = rowsOf node entries := by
  obtain ⟨page, list, found, here⟩ := holds.list inside
  have keeps := holds.keeps _ _ _ _ found here
  rw [Nat.div_add_mod'] at keeps
  have staged : b.staged node = (list.targets, list.values) := by
    simp [AdjacencyBuffer.staged, found, here]
  rw [AdjacencyBuffer.rows, staged, keeps.targets, keeps.values, Row.ofColumnsColumns keeps.wide]

end Reading
end AdjacencyBuffer

namespace StagedEntry

def Inside (nodeCount : Nat) (entries : List (StagedEntry α)) : Prop :=
  ∀ entry ∈ entries, entry.source < nodeCount

def cut (count : Nat) (entry : StagedEntry α) : StagedEntry α :=
  { entry with values := entry.values.take count }

end StagedEntry

namespace LocalBuffer
open StagedEntry AdjacencyBuffer

section Asking
variable {nodeCount capacity count : Nat} {pending delivered : List (StagedEntry α)}
  {b : AdjacencyBuffer α}

theorem addAllAsked (holds : Holds nodeCount count delivered b) {entries : List (StagedEntry α)}
    (inside : Inside nodeCount entries) : b.addAll? entries = some (b.addAll entries) := by
  have all : entries.all (fun entry => b.holds entry.source) = true :=
    List.all_eq_true.mpr fun entry member => holds.holdsNode (inside entry member)
  rw [addAll?, if_pos all]

theorem flushAsked (holds : Holds nodeCount count delivered b) (inside : Inside nodeCount pending) :
    (holding capacity count pending).flush? b = some ((holding capacity count pending).flush b) := by
  have sorted : Inside nodeCount (holding capacity count pending).sorted := by
    rw [sortedHolding]
    exact fun entry member => inside entry ((bySourcePerm pending).mem_iff.mp member)
  rw [flush?, addAllAsked holds sorted]
  rfl

theorem pushCut (capacity : Nat) (pending : List (StagedEntry α)) (entry : StagedEntry α) :
    (holding capacity count pending).push entry =
      holding capacity count (pending ++ [entry.cut count]) := by
  simp [push, holding, cut]

end Asking
end LocalBuffer

structure Intake (α : Type) where
  buffer : AdjacencyBuffer α
  locals : List (LocalBuffer α)

namespace Intake
open StagedEntry AdjacencyBuffer LocalBuffer

inductive Call (α : Type) where
  | add (place : Nat) (entry : StagedEntry α)
  | flush (place : Nat)

namespace Call

def place : Call α → Nat
  | .add place _ | .flush place => place

def entry? (count : Nat) : Call α → Option (StagedEntry α)
  | .add _ entry => some (entry.cut count)
  | .flush _ => none

def Fits (nodeCount count places : Nat) : Call α → Prop
  | .add place entry => place < places ∧ entry.source < nodeCount ∧ count ≤ entry.values.length
  | .flush place => place < places

theorem Fits.placed {nodeCount count places : Nat} {call : Call α}
    (fits : call.Fits nodeCount count places) : call.place < places := by
  cases call with
  | add place entry => exact fits.1
  | flush place => exact fits

def ask? (call : Call α) (l : LocalBuffer α) (b : AdjacencyBuffer α) :
    Option (LocalBuffer α × AdjacencyBuffer α) :=
  match call with
  | .add _ entry => l.add? entry b
  | .flush _ => l.flush? b

end Call

def opened (nodeCount count : Nat) (capacities : List Nat) : Intake α :=
  ⟨.make nodeCount count, capacities.map fun capacity => .make capacity count⟩

def perform? (intake : Intake α) (call : Call α) : Option (Intake α) := do
  let l ← intake.locals[call.place]?
  let (l, b) ← call.ask? l intake.buffer
  some ⟨b, intake.locals.set call.place l⟩

def performAll? (intake : Intake α) : List (Call α) → Option (Intake α)
  | [] => some intake
  | call :: calls => do
      let intake ← intake.perform? call
      intake.performAll? calls

def added (count : Nat) (calls : List (Call α)) : List (StagedEntry α) :=
  calls.filterMap (Call.entry? count)

def addedAt (count place : Nat) (calls : List (Call α)) : List (StagedEntry α) :=
  added count (calls.filter fun call => call.place = place)

/-- Of what has arrived, each entry with the place it came from, what came from one place. -/
def cameFrom {ε : Type} (place : Nat) (arrived : List (Nat × ε)) : List ε :=
  (arrived.filter fun arrival => arrival.1 = place).map Prod.snd

section Histories
variable {nodeCount count places : Nat} {calls : List (Call α)}

theorem addedFits (fits : ∀ call ∈ calls, call.Fits nodeCount count places) :
    Full count (added count calls) ∧ Inside nodeCount (added count calls) := by
  have each : ∀ entry ∈ added count calls,
      entry.values.length = count ∧ entry.source < nodeCount := by
    intro entry member
    obtain ⟨call, taken, made⟩ := List.mem_filterMap.mp member
    have fit := fits call taken
    cases call with
    | add place whole =>
      obtain ⟨-, inside, enough⟩ := fit
      obtain rfl := Option.some.inj made
      exact ⟨List.length_take_of_le enough, inside⟩
    | flush place => cases made
  exact ⟨fun entry member => (each entry member).1, fun entry member => (each entry member).2⟩

theorem addedSnoc (count : Nat) (calls : List (Call α)) (call : Call α) :
    added count (calls ++ [call]) = added count calls ++ (call.entry? count).toList := by
  cases made : call.entry? count <;> simp [added, made]

theorem addedAtHere (count : Nat) (calls : List (Call α)) (call : Call α) :
    addedAt count call.place (calls ++ [call]) =
      addedAt count call.place calls ++ (call.entry? count).toList := by
  simp [addedAt, ← addedSnoc]

theorem addedAtElsewhere {call : Call α} {place : Nat} (apart : call.place ≠ place) (count : Nat)
    (calls : List (Call α)) :
    addedAt count place (calls ++ [call]) = addedAt count place calls := by
  simp [addedAt, apart]

theorem addedAtMember {place : Nat} {entry : StagedEntry α}
    (member : entry ∈ addedAt count place calls) : entry ∈ added count calls := by
  obtain ⟨call, taken, made⟩ := List.mem_filterMap.mp member
  exact List.mem_filterMap.mpr ⟨call, List.mem_of_mem_filter taken, made⟩

theorem cameFromHere {ε : Type} (place : Nat) (arrived : List (Nat × ε)) (more : List ε) :
    cameFrom place (arrived ++ more.map (Prod.mk place)) = cameFrom place arrived ++ more := by
  simp [cameFrom, List.filter_map, Function.comp_def]

theorem cameFromElsewhere {ε : Type} {place other : Nat} (apart : other ≠ place)
    (arrived : List (Nat × ε)) (more : List ε) :
    cameFrom place (arrived ++ more.map (Prod.mk other)) = cameFrom place arrived := by
  simp [cameFrom, List.filter_map, Function.comp_def, apart]

end Histories

structure Waits (capacity count : Nat) (arrived all : List (StagedEntry α)) (l : LocalBuffer α) :
    Prop where
  shape : l = holding (max capacity 1) count l.held.reverse
  room : l.held.length < max capacity 1
  split : arrived ++ l.held.reverse = all

structure Conserves (nodeCount count : Nat) (capacities : List Nat) (calls : List (Call α))
    (arrived : List (Nat × StagedEntry α)) (intake : Intake α) : Prop where
  holds : Holds nodeCount count (arrived.map Prod.snd) intake.buffer
  places : intake.locals.length = capacities.length
  origins : ∀ arrival ∈ arrived, arrival.1 < capacities.length
  whole : (arrived.map Prod.snd ++ intake.locals.flatMap LocalBuffer.held).Perm (added count calls)
  waits : ∀ place l capacity, intake.locals[place]? = some l → capacities[place]? = some capacity →
    Waits capacity count (cameFrom place arrived) (addedAt count place calls) l

theorem openedConserves (nodeCount count : Nat) (capacities : List Nat) :
    Conserves nodeCount count capacities [] [] (opened nodeCount count capacities : Intake α) where
  holds := makeHolds nodeCount count
  places := by simp [opened]
  origins := by simp
  whole := by simp [opened, added, List.flatMap_map, LocalBuffer.make]
  waits place l capacity found given := by
    simp only [opened, List.getElem?_map, given, Option.map_some, Option.some.injEq] at found
    subst found
    exact ⟨rfl, by simp [LocalBuffer.make], rfl⟩

section OneCall
variable {nodeCount count places : Nat} {delivered pending : List (StagedEntry α)}
  {b : AdjacencyBuffer α}

def Responds (nodeCount count capacity : Nat) (delivered entries : List (StagedEntry α))
    (result : Option (LocalBuffer α × AdjacencyBuffer α)) : Prop :=
  ∃ released kept after, result = some (holding capacity count kept, after) ∧
    released ++ kept = entries ∧ kept.length < capacity ∧
    Holds nodeCount count (delivered ++ released) after

theorem flushResponds {capacity : Nat} (positive : 0 < capacity)
    (holds : Holds nodeCount count delivered b) (full : Full count pending)
    (inside : Inside nodeCount pending) :
    Responds nodeCount count capacity delivered pending
      ((holding capacity count pending).flush? b) := by
  obtain ⟨after, flushed, further⟩ := flushHolds capacity holds full
  refine ⟨pending, [], after, ?_, List.append_nil _, positive, further⟩
  rw [flushAsked holds inside, flushed]

theorem addResponds {capacity : Nat} (room : pending.length < capacity)
    (holds : Holds nodeCount count delivered b) {entry : StagedEntry α}
    (enough : count ≤ entry.values.length) (full : Full count (pending ++ [entry.cut count]))
    (inside : Inside nodeCount (pending ++ [entry.cut count])) :
    Responds nodeCount count capacity delivered (pending ++ [entry.cut count])
      ((holding capacity count pending).add? entry b) := by
  have taken : (holding capacity count pending).add? entry b =
      if capacity ≤ (pending ++ [entry.cut count]).length then
        (holding capacity count (pending ++ [entry.cut count])).flush? b
      else some (holding capacity count (pending ++ [entry.cut count]), b) := by
    have wide : ¬ entry.values.length < (holding capacity count pending).propertyCount :=
      Nat.not_lt.mpr enough
    rw [LocalBuffer.add?, if_neg wide, pushCut]
    rfl
  rw [taken]
  split
  · exact flushResponds (Nat.zero_lt_of_lt room) holds full inside
  · rename_i short
    refine ⟨[], _, b, rfl, List.nil_append _, Nat.lt_of_not_le short, ?_⟩
    simpa using holds

theorem Waits.responds {capacity : Nat} {arrived all : List (StagedEntry α)} {l : LocalBuffer α}
    (waits : Waits capacity count arrived all l) (holds : Holds nodeCount count delivered b)
    {call : Call α} (fits : call.Fits nodeCount count places)
    (full : Full count (all ++ (call.entry? count).toList))
    (inside : Inside nodeCount (all ++ (call.entry? count).toList)) :
    Responds nodeCount count (max capacity 1) delivered
      (l.held.reverse ++ (call.entry? count).toList) (call.ask? l b) := by
  obtain ⟨shape, room, split⟩ := waits
  rw [← List.length_reverse] at room
  generalize l.held.reverse = pending at shape room split ⊢
  subst shape split
  rw [List.append_assoc] at full inside
  have fullHere := full.right
  have insideHere : Inside nodeCount (pending ++ (call.entry? count).toList) :=
    fun entry member => inside entry (List.mem_append_right _ member)
  cases call with
  | add place entry => exact addResponds room holds fits.2.2 fullHere insideHere
  | flush place =>
    rw [Call.entry?, Option.toList_none, List.append_nil] at fullHere insideHere ⊢
    exact flushResponds (Nat.lt_of_lt_of_le Nat.one_pos (le_max_right _ _)) holds fullHere insideHere

variable {capacities : List Nat} {calls : List (Call α)} {arrived : List (Nat × StagedEntry α)}
  {intake : Intake α}

theorem heldSet {locals : List (LocalBuffer α)} {place : Nat} {l : LocalBuffer α}
    (found : locals[place]? = some l) (l' : LocalBuffer α) :
    ∃ before after, locals.flatMap LocalBuffer.held = before ++ l.held ++ after ∧
      (locals.set place l').flatMap LocalBuffer.held = before ++ l'.held ++ after := by
  obtain ⟨inside, rfl⟩ := List.getElem?_eq_some_iff.mp found
  refine ⟨(locals.take place).flatMap LocalBuffer.held,
    (locals.drop (place + 1)).flatMap LocalBuffer.held, ?_, ?_⟩
  · conv_lhs => rw [← List.take_append_drop place locals, List.drop_eq_getElem_cons inside]
    rw [List.flatMap_append, List.flatMap_cons, List.append_assoc]
  · rw [List.set_eq_take_append_cons_drop, if_pos inside, List.flatMap_append, List.flatMap_cons,
      List.append_assoc]

theorem movedPerm {ε : Type} {arrived before held behind all released kept new : List ε}
    (whole : (arrived ++ (before ++ held ++ behind)).Perm all)
    (moved : released ++ kept = held.reverse ++ new) :
    (arrived ++ released ++ (before ++ kept.reverse ++ behind)).Perm (all ++ new) := by
  classical
  refine List.perm_iff_count.mpr fun entry => ?_
  have total := whole.count_eq entry
  have here := congrArg (List.count entry) moved
  simp only [List.count_append, List.count_reverse] at total here ⊢
  omega

theorem Conserves.perform (conserves : Conserves nodeCount count capacities calls arrived intake)
    {call : Call α}
    (fits : ∀ made ∈ calls ++ [call], made.Fits nodeCount count capacities.length) :
    ∃ (released : List (StagedEntry α)) (next : Intake α), intake.perform? call = some next ∧
      Conserves nodeCount count capacities (calls ++ [call])
        (arrived ++ released.map (Prod.mk call.place)) next := by
  have fit := fits call (by simp)
  have placed : call.place < capacities.length := fit.placed
  obtain ⟨l, found⟩ : ∃ l, intake.locals[call.place]? = some l :=
    ⟨_, List.getElem?_eq_getElem (conserves.places.symm ▸ placed)⟩
  obtain ⟨capacity, given⟩ : ∃ capacity, capacities[call.place]? = some capacity :=
    ⟨_, List.getElem?_eq_getElem placed⟩
  have waits := conserves.waits call.place l capacity found given
  obtain ⟨allFull, allInside⟩ := addedFits fits
  have full : Full count (addedAt count call.place calls ++ (call.entry? count).toList) := by
    rw [← addedAtHere]
    exact fun entry member => allFull entry (addedAtMember member)
  have inside : Inside nodeCount
      (addedAt count call.place calls ++ (call.entry? count).toList) := by
    rw [← addedAtHere]
    exact fun entry member => allInside entry (addedAtMember member)
  obtain ⟨released, kept, after, asked, same, room, holds⟩ :=
    waits.responds conserves.holds fit full inside
  refine ⟨released, ⟨after, intake.locals.set call.place (holding (max capacity 1) count kept)⟩,
    by simp [perform?, found, asked], ?_, ?_, ?_, ?_, ?_⟩
  · simpa [Function.comp_def] using holds
  · simpa using conserves.places
  · intro arrival member
    rcases List.mem_append.mp member with earlier | now
    · exact conserves.origins arrival earlier
    · obtain ⟨entry, -, rfl⟩ := List.mem_map.mp now
      exact placed
  · obtain ⟨before, behind, was, is⟩ := heldSet found (holding (max capacity 1) count kept)
    have moved := conserves.whole
    rw [was] at moved
    rw [is, addedSnoc, List.map_append, List.map_map]
    simpa [Function.comp_def, holding] using movedPerm moved same
  · intro place l' capacity' found' given'
    by_cases here : place = call.place
    · subst here
      obtain rfl : capacity = capacity' := Option.some.inj (given.symm.trans given')
      obtain rfl : holding (max capacity 1) count kept = l' := by
        rw [List.getElem?_set_self (conserves.places.symm ▸ placed)] at found'
        exact Option.some.inj found'
      rw [cameFromHere, addedAtHere]
      refine ⟨by simp [holding], by simpa [holding] using room, ?_⟩
      rw [← waits.split, List.append_assoc, List.append_assoc, ← same]
      simp [holding]
    · have apart : call.place ≠ place := Ne.symm here
      rw [List.getElem?_set_ne apart] at found'
      rw [cameFromElsewhere apart, addedAtElsewhere apart]
      exact conserves.waits place l' capacity' found' given'

end OneCall

theorem Conserves.performAll {nodeCount count : Nat} {capacities : List Nat}
    {before calls : List (Call α)} {arrived : List (Nat × StagedEntry α)} {intake : Intake α}
    (conserves : Conserves nodeCount count capacities before arrived intake)
    (fits : ∀ made ∈ before ++ calls, made.Fits nodeCount count capacities.length) :
    ∃ (arrived' : List (Nat × StagedEntry α)) (next : Intake α),
      intake.performAll? calls = some next ∧
      Conserves nodeCount count capacities (before ++ calls) arrived' next := by
  induction calls generalizing before arrived intake with
  | nil => exact ⟨arrived, intake, rfl, by simpa using conserves⟩
  | cons call calls ih =>
    rw [List.append_cons] at fits
    obtain ⟨released, next, done, further⟩ :=
      conserves.perform fun made member => fits made (List.mem_append_left _ member)
    obtain ⟨arrived', last, rest, final⟩ := ih further fits
    rw [List.append_assoc] at final
    exact ⟨arrived', last, by simp [performAll?, done, rest], final⟩

structure Conserved (nodeCount count : Nat) (capacities : List Nat) (calls : List (Call α))
    (intake : Intake α) : Prop where
  rows : ∀ node < nodeCount,
    (intake.buffer.rows node ++ intake.locals.flatMap fun l => rowsOf node l.held).Perm
      (rowsOf node (added count calls))
  ordered : ∀ node < nodeCount, ∃ arrivals : List (Nat × Row α),
    intake.buffer.rows node = arrivals.map Prod.snd ∧
    (∀ arrival ∈ arrivals, arrival.1 < capacities.length) ∧
    ∀ (place : Nat) (l : LocalBuffer α), intake.locals[place]? = some l →
      cameFrom place arrivals ++ rowsOf node l.held.reverse =
        rowsOf node (addedAt count place calls)
  room : intake.locals.length = capacities.length ∧
    ∀ (place : Nat) (l : LocalBuffer α) (capacity : Nat), intake.locals[place]? = some l →
      capacities[place]? = some capacity →
        l.capacity = max capacity 1 ∧ l.count = l.held.length ∧ l.count < l.capacity
  found : ∀ node < nodeCount, node / pageNodes * pageNodes + node % pageNodes = node ∧
    ∃ page list, intake.buffer.pages[node / pageNodes]? = some page ∧
      page.lists[node % pageNodes]? = some list ∧
      intake.buffer.rows node = Row.ofColumns list.targets list.values
  lists : ∀ (page offset : Nat) (staged : StagedPage α) (list : StagedList α),
    intake.buffer.pages[page]? = some staged → staged.lists[offset]? = some list →
      page * pageNodes + offset < nodeCount ∧
      (page * pageNodes + offset) / pageNodes = page ∧
      (page * pageNodes + offset) % pageNodes = offset
  walked : nodeCount ≤ UInt64.size → ∀ l ∈ intake.locals,
    l.flush? intake.buffer =
      (intake.buffer.walk? count l.held.reverse).map fun after => (l.cleared, after)

section Conserving
variable {nodeCount count : Nat} {capacities : List Nat} {calls : List (Call α)}
  {arrived : List (Nat × StagedEntry α)} {intake : Intake α}

theorem rowsOfPerm {xs ys : List (StagedEntry α)} (perm : xs.Perm ys) (node : Nat) :
    (rowsOf node xs).Perm (rowsOf node ys) := (perm.filter _).map _

theorem rowsOfHeld (node : Nat) (locals : List (LocalBuffer α)) :
    rowsOf node (locals.flatMap LocalBuffer.held) =
      locals.flatMap fun l => rowsOf node l.held := by
  simp [rowsOf, List.filter_flatMap, List.map_flatMap]

def arrivalsAt (node : Nat) (arrived : List (Nat × StagedEntry α)) : List (Nat × Row α) :=
  (arrived.filter fun arrival => arrival.2.source = node).map fun arrival =>
    (arrival.1, arrival.2.row)

theorem arrivalsRows (node : Nat) (arrived : List (Nat × StagedEntry α)) :
    (arrivalsAt node arrived).map Prod.snd = rowsOf node (arrived.map Prod.snd) := by
  simp [arrivalsAt, rowsOf, List.filter_map, Function.comp_def]

theorem arrivalsFrom (place node : Nat) (arrived : List (Nat × StagedEntry α)) :
    cameFrom place (arrivalsAt node arrived) = rowsOf node (cameFrom place arrived) := by
  simp [arrivalsAt, cameFrom, rowsOf, List.filter_map, List.filter_filter, Function.comp_def,
    Bool.and_comm]

theorem Conserves.waiting (conserves : Conserves nodeCount count capacities calls arrived intake)
    {place : Nat} {l : LocalBuffer α} (found : intake.locals[place]? = some l) :
    ∃ capacity, Waits capacity count (cameFrom place arrived) (addedAt count place calls) l := by
  obtain ⟨inside, -⟩ := List.getElem?_eq_some_iff.mp found
  have given := List.getElem?_eq_getElem (conserves.places ▸ inside)
  exact ⟨_, conserves.waits place l _ found given⟩

theorem Conserves.ordered (conserves : Conserves nodeCount count capacities calls arrived intake)
    (node : Nat) {place : Nat} {l : LocalBuffer α} (found : intake.locals[place]? = some l) :
    cameFrom place (arrivalsAt node arrived) ++ rowsOf node l.held.reverse =
      rowsOf node (addedAt count place calls) := by
  obtain ⟨capacity, waits⟩ := conserves.waiting found
  rw [arrivalsFrom, ← rowsOfAppend, waits.split]

theorem Conserves.walked (conserves : Conserves nodeCount count capacities calls arrived intake)
    (fits : ∀ made ∈ calls, made.Fits nodeCount count capacities.length)
    (words : nodeCount ≤ UInt64.size) {l : LocalBuffer α} (member : l ∈ intake.locals) :
    l.flush? intake.buffer =
      (intake.buffer.walk? count l.held.reverse).map fun after => (l.cleared, after) := by
  obtain ⟨place, found⟩ := List.mem_iff_getElem?.mp member
  obtain ⟨capacity, shape, -, split⟩ := conserves.waiting found
  have waiting : ∀ entry ∈ l.held.reverse, entry ∈ added count calls := by
    intro entry here
    have all : entry ∈ addedAt count place calls := by
      rw [← split]
      exact List.mem_append_right _ here
    exact addedAtMember all
  obtain ⟨allFull, allInside⟩ := addedFits fits
  have full : Full count l.held.reverse := fun entry here => allFull entry (waiting entry here)
  have within : Inside nodeCount l.held.reverse := fun entry here => allInside entry (waiting entry here)
  have fit : Words l.held.reverse := fun entry here => Nat.lt_of_lt_of_le (within entry here) words
  rw [walkSorted full fit, Option.map_some]
  generalize l.held.reverse = pending at shape within
  subst shape
  rw [flushAsked conserves.holds within, flush, sortedHolding]

theorem Conserves.conserved (conserves : Conserves nodeCount count capacities calls arrived intake)
    (fits : ∀ made ∈ calls, made.Fits nodeCount count capacities.length) :
    Conserved nodeCount count capacities calls intake where
  rows node inside := by
    rw [conserves.holds.rows inside, ← rowsOfHeld, ← rowsOfAppend]
    exact rowsOfPerm conserves.whole node
  ordered node inside := by
    refine ⟨arrivalsAt node arrived, ?_, ?_, fun place l found => conserves.ordered node found⟩
    · rw [arrivalsRows, conserves.holds.rows inside]
    · intro arrival member
      obtain ⟨original, taken, rfl⟩ := List.mem_map.mp member
      exact conserves.origins original (List.mem_of_mem_filter taken)
  room := by
    refine ⟨conserves.places, fun place l capacity found given => ?_⟩
    obtain ⟨shape, room, -⟩ := conserves.waits place l capacity found given
    have capped := congrArg LocalBuffer.capacity shape
    have counted := congrArg LocalBuffer.count shape
    simp only [holding, List.length_reverse] at capped counted
    exact ⟨capped, counted, by rw [capped, counted]; exact room⟩
  found node inside := by
    obtain ⟨page, list, found, here⟩ := conserves.holds.list inside
    exact ⟨Nat.div_add_mod' node pageNodes, page, list, found, here,
      by simp [AdjacencyBuffer.rows, AdjacencyBuffer.staged, found, here]⟩
  lists page offset staged list found here := by
    have bound := conserves.holds.offsetInside found here
    obtain ⟨small, -⟩ := Array.getElem?_eq_some_iff.mp here
    rw [conserves.holds.lists page staged found] at small
    exact ⟨by omega, (place _ page offset bound).mp rfl⟩
  walked words l member := conserves.walked fits words member

end Conserving

/-- Nothing is lost or doubled between the local buffers and the lists, whatever their capacities and
in whatever order they are filled and flushed. -/
theorem intakeConserves (nodeCount count : Nat) (capacities : List Nat) (calls : List (Call α))
    (fits : ∀ call ∈ calls, call.Fits nodeCount count capacities.length) :
    ∃ intake, (opened nodeCount count capacities).performAll? calls = some intake ∧
      Conserved nodeCount count capacities calls intake := by
  obtain ⟨arrived, intake, done, conserves⟩ :=
    (openedConserves nodeCount count capacities).performAll fits
  exact ⟨intake, done, conserves.conserved fits⟩

def sampleCalls : List (Call Int) :=
  [.add 0 ⟨4096, 7, [1]⟩, .add 1 ⟨4096, 8, [2, 0]⟩, .add 0 ⟨4095, 9, [3]⟩, .add 0 ⟨4096, 7, [4]⟩,
    .flush 0, .add 0 ⟨4096, 5, [6]⟩]

theorem sampleConserves :
    (∀ call ∈ sampleCalls, call.Fits 4097 1 2) ∧
    ∃ intake, (opened 4097 1 [2, 0]).performAll? sampleCalls = some intake ∧
      Conserved 4097 1 [2, 0] sampleCalls intake ∧
      (intake.buffer.rows 4096 ++ intake.locals.flatMap fun l => rowsOf 4096 l.held).Perm
        [⟨7, [1]⟩, ⟨8, [2]⟩, ⟨7, [4]⟩, ⟨5, [6]⟩] := by
  have fits : ∀ call ∈ sampleCalls, call.Fits 4097 1 2 := by simp [sampleCalls, Call.Fits]
  obtain ⟨intake, done, conserved⟩ := intakeConserves 4097 1 [2, 0] sampleCalls fits
  exact ⟨fits, intake, done, conserved, conserved.rows 4096 (by decide)⟩

end Intake
end CommunityGraph
