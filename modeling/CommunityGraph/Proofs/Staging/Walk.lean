import Mathlib.Data.List.TakeWhile
import CommunityGraph.Proofs.Staging.AdjacencyBuffer

/-! Entries that lie in parallel arrays are walked in the order of their sources, page after page. The walk
adds what adding the entries one by one adds. -/
namespace CommunityGraph.AdjacencyBuffer
open StagedEntry
variable {α : Type}

def sourcesOf (entries : List (StagedEntry α)) : Array UInt64 :=
  (entries.map fun entry => UInt64.ofNat entry.source).toArray

def targetsOf (entries : List (StagedEntry α)) : Array UInt64 :=
  (entries.map StagedEntry.target).toArray

def flatValues (entries : List (StagedEntry α)) : Array α :=
  (entries.flatMap StagedEntry.values).toArray

def orderOf (sources : Array UInt64) : List Nat :=
  (List.range sources.size).mergeSort fun a b => sources.getD a 0 ≤ sources.getD b 0

def Words (entries : List (StagedEntry α)) : Prop := ∀ entry ∈ entries, entry.source < UInt64.size

section Picking
variable {count : Nat} {entries : List (StagedEntry α)}

theorem valuesLength (full : Full count entries) :
    (entries.flatMap StagedEntry.values).length = entries.length * count := by
  induction entries with
  | nil => simp
  | cons entry entries ih =>
    have first := full entry (by simp)
    have rest := ih fun other member => full other (List.mem_cons_of_mem _ member)
    rw [List.flatMap_cons, List.length_append, first, rest, List.length_cons, Nat.succ_mul,
      Nat.add_comm]

theorem valuesPlaced (full : Full count entries) {index : Nat} {entry : StagedEntry α}
    (here : entries[index]? = some entry) :
    Segment (flatValues entries) (index * count) entry.values := by
  obtain ⟨inside, rfl⟩ := List.getElem?_eq_some_iff.mp here
  have earlier : Full count (entries.take index) :=
    fun other member => full other (List.mem_of_mem_take member)
  refine ⟨(entries.take index).flatMap StagedEntry.values,
    (entries.drop (index + 1)).flatMap StagedEntry.values, ?_, ?_⟩
  · have split := List.take_append_drop index entries
    rw [List.drop_eq_getElem_cons inside] at split
    rw [flatValues, List.append_assoc, ← List.flatMap_cons, ← List.flatMap_append, split]
  · rw [valuesLength earlier, List.length_take_of_le (Nat.le_of_lt inside)]

theorem pickAll (full : Full count entries) (words : Words entries) {order : List Nat}
    {picked : List (StagedEntry α)}
    (found : order.map (fun index => entries[index]?) = picked.map some) :
    pick? count (sourcesOf entries) (targetsOf entries) (flatValues entries) order = some picked := by
  induction order generalizing picked with
  | nil =>
    obtain rfl : picked = [] := by simpa using found.symm
    rfl
  | cons index order ih =>
    cases picked with
    | nil => simp at found
    | cons entry picked =>
      obtain ⟨here, rest⟩ := List.cons.inj found
      have width : entry.values.length = count := full entry (List.mem_of_getElem? here)
      have placed := valuesPlaced full here
      have fits := placed.fits
      have read := placed.extracted
      rw [width, ← Nat.succ_mul] at fits read
      have source : (UInt64.ofNat entry.source).toNat = entry.source :=
        UInt64.toNat_ofNat_of_lt' (words entry (List.mem_of_getElem? here))
      have later := ih rest
      rw [pick?] at later
      simp only [pick?, List.mapM_cons, later]
      simp [-Array.toList_extract, sourcesOf, targetsOf, here, fits, read, source]

def sourceAt (entry : Option (StagedEntry α)) : Nat := entry.elim 0 StagedEntry.source

theorem orderPicks (words : Words entries) :
    (orderOf (sourcesOf entries)).map (fun index => entries[index]?) =
      (bySource entries).map some := by
  have indices : (List.range entries.length).map (fun index => entries[index]?) =
      entries.map some := by
    apply List.ext_getElem?
    intro index
    by_cases inside : index < entries.length
    · simp [inside]
    · simp [inside]
  have compared : ∀ a ∈ List.range entries.length, ∀ b ∈ List.range entries.length,
      decide ((sourcesOf entries).getD a 0 ≤ (sourcesOf entries).getD b 0) =
        decide (sourceAt entries[a]? ≤ sourceAt entries[b]?) := by
    intro a insideA b insideB
    rw [List.mem_range] at insideA insideB
    have sourceA := UInt64.toNat_ofNat_of_lt' (words entries[a] (List.getElem_mem insideA))
    have sourceB := UInt64.toNat_ofNat_of_lt' (words entries[b] (List.getElem_mem insideB))
    refine decide_eq_decide.mpr ?_
    simp [sourcesOf, sourceAt, insideA, insideB, UInt64.le_iff_toNat_le, sourceA, sourceB]
  have size : (sourcesOf entries).size = entries.length := by simp [sourcesOf]
  have sorted : (bySource entries).map some =
      (entries.map some).mergeSort fun a b => decide (sourceAt a ≤ sourceAt b) :=
    List.map_mergeSort fun a _ b _ => rfl
  rw [orderOf, size, sorted, ← indices]
  exact List.map_mergeSort compared

theorem pickSorted (full : Full count entries) (words : Words entries) :
    pick? count (sourcesOf entries) (targetsOf entries) (flatValues entries)
      (orderOf (sourcesOf entries)) = some (bySource entries) :=
  pickAll full words (orderPicks words)

end Picking

section Pages

def addHere (page : StagedPage α) (entries : List (StagedEntry α)) : StagedPage α :=
  entries.foldl (fun page entry => page.add (entry.source % pageNodes) entry.target entry.values) page

def addPages (b : AdjacencyBuffer α) : List (StagedEntry α) → AdjacencyBuffer α
  | [] => b
  | entry :: entries =>
      let here := fun other : StagedEntry α => other.source / pageNodes = entry.source / pageNodes
      addPages ⟨b.nodeCount, b.propertyCount, b.pages.modify (entry.source / pageNodes) fun page =>
          addHere page (entry :: entries.takeWhile here)⟩
        (entries.dropWhile here)
termination_by entries => entries.length
decreasing_by
  exact Nat.lt_succ_of_le (List.dropWhile_suffix _).length_le

theorem addAllHere (b : AdjacencyBuffer α) {page : Nat} {entries : List (StagedEntry α)}
    (here : ∀ entry ∈ entries, entry.source / pageNodes = page) :
    b.addAll entries =
      ⟨b.nodeCount, b.propertyCount, b.pages.modify page fun lists => addHere lists entries⟩ := by
  induction entries generalizing b with
  | nil =>
    have same : b.pages.modify page (fun lists => addHere lists []) = b.pages := by
      apply Array.ext_getElem?
      intro index
      rw [Array.getElem?_modify]
      split <;> simp [addHere]
    rw [same]
    rfl
  | cons entry entries ih =>
    have opened := here entry (by simp)
    have step : b.addAll (entry :: entries) = (b.add entry).addAll entries := rfl
    rw [step, ih (b.add entry) fun other member => here other (List.mem_cons_of_mem _ member)]
    have same : (b.add entry).pages.modify page (fun lists => addHere lists entries) =
        b.pages.modify page fun lists => addHere lists (entry :: entries) := by
      apply Array.ext_getElem?
      intro index
      simp only [AdjacencyBuffer.add, opened, Array.getElem?_modify]
      split
      · rw [Option.map_map]
        rfl
      · rfl
    rw [same]
    rfl

theorem addPagesAll (b : AdjacencyBuffer α) (entries : List (StagedEntry α)) :
    b.addPages entries = b.addAll entries := by
  induction b, entries using addPages.induct with
  | case1 b =>
    rw [addPages]
    rfl
  | case2 b entry entries here ih =>
    have run : ∀ other ∈ entry :: entries.takeWhile here,
        other.source / pageNodes = entry.source / pageNodes := by
      intro other member
      rcases List.mem_cons.mp member with rfl | inside
      · rfl
      · simpa [here] using List.mem_takeWhile_imp inside
    have split : entry :: entries =
        (entry :: entries.takeWhile here) ++ entries.dropWhile here := by simp
    have all : b.addAll (entry :: entries) =
        (b.addAll (entry :: entries.takeWhile here)).addAll (entries.dropWhile here) := by
      conv_lhs => rw [split]
      exact List.foldl_append
    rw [addPages, ih, all, addAllHere b run]

def walk? (b : AdjacencyBuffer α) (count : Nat) (entries : List (StagedEntry α)) :
    Option (AdjacencyBuffer α) :=
  (pick? count (sourcesOf entries) (targetsOf entries) (flatValues entries)
    (orderOf (sourcesOf entries))).map b.addPages

theorem walkSorted {count : Nat} {entries : List (StagedEntry α)} (full : Full count entries)
    (words : Words entries) (b : AdjacencyBuffer α) :
    b.walk? count entries = some (b.addAll (bySource entries)) := by
  rw [walk?, pickSorted full words, Option.map_some, addPagesAll]

end Pages
end CommunityGraph.AdjacencyBuffer
