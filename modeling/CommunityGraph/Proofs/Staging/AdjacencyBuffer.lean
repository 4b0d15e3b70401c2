import CommunityGraph.Proofs.Adjacency.Compression
import CommunityGraph.Proofs.Batch.Queue
import CommunityGraph.Proofs.StableSort
import CommunityGraph.Proofs.Staging.StagedList
import CommunityGraph.Staging.AdjacencyBuffer

/-! What a buffer of staged lists holds after entries were added to it, and that compressing it
stores the arranged rows of every node. -/
namespace CommunityGraph
variable {α : Type}

namespace StagedEntry

def row (entry : StagedEntry α) : Row α := ⟨entry.target, entry.values⟩

def rowsOf (node : Nat) (entries : List (StagedEntry α)) : List (Row α) :=
  (entries.filter fun entry => entry.source = node).map row

theorem rowsOfAppend (node : Nat) (xs ys : List (StagedEntry α)) :
    rowsOf node (xs ++ ys) = rowsOf node xs ++ rowsOf node ys := by
  simp [rowsOf]

theorem rowsOfHere {node : Nat} {entry : StagedEntry α} (same : entry.source = node)
    {entries : List (StagedEntry α)} :
    rowsOf node (entries ++ [entry]) = rowsOf node entries ++ [entry.row] := by
  simp [rowsOf, same]

theorem rowsOfElsewhere {node : Nat} {entry : StagedEntry α} (apart : entry.source ≠ node)
    {entries : List (StagedEntry α)} :
    rowsOf node (entries ++ [entry]) = rowsOf node entries := by
  simp [rowsOf, apart]

def Full (count : Nat) (entries : List (StagedEntry α)) : Prop :=
  ∀ entry ∈ entries, entry.values.length = count

theorem Full.rows {count : Nat} {entries : List (StagedEntry α)} (full : Full count entries)
    (node : Nat) : Row.Wide count (rowsOf node entries) := by
  intro row member
  obtain ⟨entry, chosen, rfl⟩ := List.mem_map.mp member
  exact full entry (List.mem_of_mem_filter chosen)

def bySource (entries : List (StagedEntry α)) : List (StagedEntry α) :=
  entries.mergeSort fun a b => a.source ≤ b.source

theorem bySourcePerm (entries : List (StagedEntry α)) : (bySource entries).Perm entries :=
  List.mergeSort_perm _ _

theorem rowsOfBySource (node : Nat) (entries : List (StagedEntry α)) :
    rowsOf node (bySource entries) = rowsOf node entries := by
  have kept := StableSort.filterSorted (fun a b : Nat => decide (a ≤ b))
    (fun a b c ab bc => by
      simp only [decide_eq_true_eq] at ab bc ⊢
      exact Nat.le_trans ab bc)
    (fun a b => by
      simp only [Bool.or_eq_true, decide_eq_true_eq]
      exact Nat.le_total _ _) StagedEntry.source node entries
  rw [rowsOf, bySource, kept, rowsOf]

end StagedEntry

namespace AdjacencyBuffer
open StagedEntry

structure Holds (nodeCount count : Nat) (entries : List (StagedEntry α))
    (b : AdjacencyBuffer α) : Prop where
  nodes : b.nodeCount = nodeCount
  properties : b.propertyCount = count
  pages : b.pages.size = ceilDiv nodeCount pageNodes
  lists : ∀ (page : Nat) (staged : StagedPage α), b.pages[page]? = some staged →
    staged.lists.size = min pageNodes (nodeCount - page * pageNodes)
  keeps : ∀ (page : Nat) (staged : StagedPage α) (offset : Nat) (list : StagedList α),
    b.pages[page]? = some staged → staged.lists[offset]? = some list →
    list.Keeps count (rowsOf (page * pageNodes + offset) entries)

theorem makeHolds (nodeCount count : Nat) :
    Holds nodeCount count [] (make nodeCount count : AdjacencyBuffer α) := by
  refine ⟨rfl, rfl, by simp [make], ?_, ?_⟩
  · intro page staged found
    simp only [make, List.getElem?_toArray, List.getElem?_map, Option.map_eq_some_iff] at found
    obtain ⟨index, place, rfl⟩ := found
    obtain ⟨_, rfl⟩ := List.getElem?_eq_some_iff.mp place
    simp [StagedPage.make]
  · intro page staged offset list found here
    simp only [make, List.getElem?_toArray, List.getElem?_map, Option.map_eq_some_iff] at found
    obtain ⟨index, place, rfl⟩ := found
    simp only [StagedPage.make, Array.getElem?_replicate, Option.ite_none_right_eq_some,
      Option.some.injEq] at here
    rw [← here.2]
    exact StagedList.emptyKeeps count

theorem Holds.congr {nodeCount count : Nat} {xs ys : List (StagedEntry α)} {b : AdjacencyBuffer α}
    (holds : Holds nodeCount count xs b) (same : ∀ node, rowsOf node xs = rowsOf node ys) :
    Holds nodeCount count ys b where
  nodes := holds.nodes
  properties := holds.properties
  pages := holds.pages
  lists := holds.lists
  keeps page staged offset list found here := by
    rw [← same]
    exact holds.keeps page staged offset list found here

theorem Holds.unique {nodeCount count : Nat} {entries : List (StagedEntry α)}
    {b b' : AdjacencyBuffer α} (one : Holds nodeCount count entries b)
    (other : Holds nodeCount count entries b') : b = b' := by
  obtain ⟨nodes, properties, pages⟩ := b
  obtain ⟨nodes', properties', pages'⟩ := b'
  obtain rfl : nodes = nodes' := one.nodes.trans other.nodes.symm
  obtain rfl : properties = properties' := one.properties.trans other.properties.symm
  obtain rfl : pages = pages' := by
    refine Array.ext (one.pages.trans other.pages.symm) fun page here there => ?_
    have found : pages[page]? = some pages[page] := Array.getElem?_eq_getElem here
    have found' : pages'[page]? = some pages'[page] := Array.getElem?_eq_getElem there
    have size := (one.lists page _ found).trans (other.lists page _ found').symm
    have lists : pages[page].lists = pages'[page].lists := by
      refine Array.ext size fun offset inside inside' => ?_
      exact (one.keeps page _ offset _ found (Array.getElem?_eq_getElem inside)).unique
        (other.keeps page _ offset _ found' (Array.getElem?_eq_getElem inside'))
    exact congrArg StagedPage.mk lists
  rfl

theorem place (node page offset : Nat) (inside : offset < pageNodes) :
    page * pageNodes + offset = node ↔ node / pageNodes = page ∧ node % pageNodes = offset := by
  have size : pageNodes = 4096 := rfl
  constructor
  · rintro rfl
    rw [size] at inside ⊢
    constructor <;> omega
  · rintro ⟨rfl, rfl⟩
    exact Nat.div_add_mod' node pageNodes

theorem Holds.offsetInside {nodeCount count : Nat} {entries : List (StagedEntry α)}
    {b : AdjacencyBuffer α} (holds : Holds nodeCount count entries b) {page offset : Nat}
    {staged : StagedPage α} {list : StagedList α} (found : b.pages[page]? = some staged)
    (here : staged.lists[offset]? = some list) : offset < pageNodes := by
  obtain ⟨small, -⟩ := Array.getElem?_eq_some_iff.mp here
  rw [holds.lists page staged found] at small
  exact Nat.lt_of_lt_of_le small (Nat.min_le_left _ _)

theorem Holds.add {nodeCount count : Nat} {entries : List (StagedEntry α)} {b : AdjacencyBuffer α}
    (holds : Holds nodeCount count entries b) {entry : StagedEntry α}
    (full : entry.values.length = count) :
    Holds nodeCount count (entries ++ [entry]) (b.add entry) := by
  obtain ⟨nodes, propertyCount, pages⟩ := b
  refine ⟨holds.nodes, holds.properties, by simpa [AdjacencyBuffer.add] using holds.pages, ?_, ?_⟩
  · intro page staged found
    simp only [AdjacencyBuffer.add, Array.getElem?_modify] at found
    split at found
    · obtain ⟨before, there, rfl⟩ := Option.map_eq_some_iff.mp found
      simpa [StagedPage.add] using holds.lists page before there
    · exact holds.lists page staged found
  · -- a list changes only if both its page and its place on the page are those of the source
    intro page staged offset list found here
    simp only [AdjacencyBuffer.add, Array.getElem?_modify] at found
    split at found
    · rename_i samePage
      obtain ⟨before, there, rfl⟩ := Option.map_eq_some_iff.mp found
      simp only [StagedPage.add, Array.getElem?_modify] at here
      split at here
      · rename_i sameOffset
        obtain ⟨old, was, rfl⟩ := Option.map_eq_some_iff.mp here
        have bound := holds.offsetInside there was
        rw [rowsOfHere ((place _ page offset bound).mpr ⟨samePage, sameOffset⟩).symm]
        exact (holds.keeps page before offset old there was).add entry.target full
      · rename_i otherOffset
        have bound := holds.offsetInside there here
        rw [rowsOfElsewhere fun same => otherOffset ((place _ page offset bound).mp same.symm).2]
        exact holds.keeps page before offset list there here
    · rename_i otherPage
      have bound := holds.offsetInside found here
      rw [rowsOfElsewhere fun same => otherPage ((place _ page offset bound).mp same.symm).1]
      exact holds.keeps page staged offset list found here

theorem Holds.addAll {nodeCount count : Nat} {entries : List (StagedEntry α)}
    {b : AdjacencyBuffer α} (holds : Holds nodeCount count entries b)
    {more : List (StagedEntry α)} (full : Full count more) :
    Holds nodeCount count (entries ++ more) (b.addAll more) := by
  induction more generalizing entries b with
  | nil => simpa [AdjacencyBuffer.addAll] using holds
  | cons entry more ih =>
    have step := holds.add (full entry (by simp))
    have rest := ih step fun other member => full other (List.mem_cons_of_mem _ member)
    rw [List.append_assoc] at rest
    exact rest

end AdjacencyBuffer
end CommunityGraph
