import Mathlib
import CommunityGraph.Louvain
import CommunityGraph.Proofs.Batch.Coverage
import CommunityGraph.Proofs.Graph.Reading

/-! Graphs that are made out of the rows of a graph: the symmetric copy, and the graph of communities.
Each row gives one relationship for each of its entries, and parallel ones are summed. -/
namespace CommunityGraph
variable {α : Type}

theorem Link.bothWays (links : List (Link α)) (u v : Nat) :
    (∃ link ∈ links.flatMap (Link.oriented .undirected), link.source = u ∧ link.target = v) ↔
      (∃ link ∈ links, link.source = u ∧ link.target = v) ∨
        ∃ link ∈ links, link.source = v ∧ link.target = u := by
  simp only [List.mem_flatMap, Link.oriented, List.mem_cons, List.not_mem_nil, or_false]
  constructor
  · rintro ⟨other, ⟨link, member, same⟩, rfl, rfl⟩
    rcases same with rfl | rfl
    · exact .inl ⟨_, member, rfl, rfl⟩
    · exact .inr ⟨_, member, rfl, rfl⟩
  · rintro (⟨link, member, rfl, rfl⟩ | ⟨link, member, rfl, rfl⟩)
    · exact ⟨link, ⟨link, member, .inl rfl⟩, rfl, rfl⟩
    · exact ⟨link.swap, ⟨link, member, .inr rfl⟩, rfl, rfl⟩

namespace Network
variable {network : Network α} {rename : Nat → Nat}

def links (network : Network α) (rename : Nat → Nat) (nodes : List Nat) : List (Link α) :=
  nodes.flatMap fun node =>
    (network.row node).map fun entry => ⟨rename node, rename entry.1, [entry.2]⟩

theorem memLinks {nodes : List Nat} {link : Link α} : link ∈ network.links rename nodes ↔
    ∃ node ∈ nodes, ∃ entry ∈ network.row node,
      link = ⟨rename node, rename entry.1, [entry.2]⟩ := by
  simp [links, eq_comm]

theorem linksTargets {a b : Nat} :
    (∃ link ∈ network.links rename (List.range network.nodeCount),
      link.source = a ∧ link.target = b) ↔
      ∃ u v, v ∈ network.targets u ∧ rename u = a ∧ rename v = b := by
  constructor
  · rintro ⟨link, member, rfl, rfl⟩
    obtain ⟨node, -, entry, there, rfl⟩ := memLinks.mp member
    exact ⟨node, entry.1, List.mem_map_of_mem there, rfl, rfl⟩
  · rintro ⟨u, v, member, rfl, rfl⟩
    obtain ⟨entry, there, rfl⟩ := List.mem_map.mp member
    exact ⟨_, memLinks.mpr ⟨u, List.mem_range.mpr (sourceInside member), entry, there, rfl⟩, rfl, rfl⟩

theorem linksWithin {count : Nat} (inside : network.Inside)
    (renamed : ∀ node < network.nodeCount, rename node < count) :
    Link.Inside count (network.links rename (List.range network.nodeCount)) := by
  intro link member
  obtain ⟨node, small, entry, there, rfl⟩ := memLinks.mp member
  exact ⟨renamed node (List.mem_range.mp small),
    renamed _ (inside node entry.1 (List.mem_map_of_mem there))⟩

def Finite [Weight α] (network : Network α) : Prop :=
  ∀ node, ∀ entry ∈ network.row node, Weight.isFinite entry.2 = true

theorem linksFull (nodes : List Nat) : Link.Full 1 (network.links rename nodes) := by
  intro link member
  obtain ⟨node, -, entry, -, rfl⟩ := memLinks.mp member
  rfl

end Network

namespace Louvain
open Builder

structure Summed [Weight α] (count : Nat) (links arrivals : List (Link α)) (next : Network α) :
    Prop where
  nodes : next.nodeCount = count
  inside : next.Inside
  arrived : arrivals.Perm links
  ascending : ∀ node, (next.targets node).Pairwise (· < ·)
  linked : ∀ source target, target ∈ next.targets source ↔
    ∃ link ∈ links, link.source = source ∧ link.target = target
  weights : ∀ source < count, ∀ target < count, next.between source target =
    (Aggregation.sum.fold?
      ((Link.between source target arrivals).filterMap fun values => values[0]?)).toList

variable [Weight α] {idMap : IdMap} {config : BuilderConfig α} {layout : PropertyLayout}
  {links : List (Link α)} {b after : Builder α} {network : Network α} {rename : Nat → Nat}

def Added (idMap : IdMap) (config : BuilderConfig α) (layout : PropertyLayout)
    (links : List (Link α)) (Refused : Prop) : Except EngineError Unit × Builder α → Prop
  | (.ok (), after) => Runs idMap config layout links after
  | (.error _, _) => Refused

section Adding
variable {layout : PropertyLayout} (runs : Runs idMap config layout links b)
  (valid : config.Valid layout) (single : layout.propertyCount = 1)
include runs valid single

theorem addInternalAdds {source target : Nat} (value : α) (sourceInside : source < idMap.nodeCount)
    (targetInside : target < idMap.nodeCount) :
    Added idMap config layout (links ++ [⟨source, target, [value]⟩])
      (Weight.isFinite value = false) (b.addInternal source target [value]) := by
  have usable : Usable layout [value] ↔ Weight.isFinite value = true := by
    simp [Usable, single]
  cases finite : Weight.isFinite value with
  | true =>
    have link : link? idMap config layout (.internal source target [value]) =
        some ⟨source, target, [value]⟩ :=
      if_pos ⟨sourceInside, targetInside, usable.mpr finite⟩
    obtain ⟨further, taken⟩ := runs.perform valid (.internal source target [value])
    rw [link] at further taken
    obtain ⟨ok, -⟩ := taken.mpr rfl
    have same : b.addInternal source target [value] =
      b.perform (.internal source target [value]) := rfl
    rw [same]
    generalize b.perform (.internal source target [value]) = answer at further ok
    obtain ⟨outcome, after⟩ := answer
    obtain rfl : outcome = .ok () := ok
    exact further
  | false =>
    have link : link? idMap config layout (.internal source target [value]) = none :=
      if_neg fun inside => by simp [usable.mp inside.2.2] at finite
    have answers : Answers b none false (b.addInternal source target [value]) :=
      link ▸ runs.known.perform (.internal source target [value])
    generalize b.addInternal source target [value] = answer at answers
    cases answers
    rfl

theorem addRowAdds {source : Nat} {row : List (Nat × α)} (sourceInside : source < idMap.nodeCount)
    (targetsInside : ∀ entry ∈ row, rename entry.1 < idMap.nodeCount) :
    Added idMap config layout
      (links ++ row.map fun entry => ⟨source, rename entry.1, [entry.2]⟩)
      (∃ entry ∈ row, Weight.isFinite entry.2 = false) (b.addEach (addTo rename source) row) := by
  induction row generalizing links b with
  | nil => simpa [addEach, Added] using runs
  | cons entry row ih =>
    have first := addInternalAdds runs valid single entry.2 sourceInside
      (targetsInside entry (by simp))
    rw [addEach, addTo]
    generalize b.addInternal source (rename entry.1) [entry.2] = answer at first
    obtain ⟨outcome, after⟩ := answer
    cases outcome with
    | error e => exact ⟨entry, by simp, first⟩
    | ok =>
      have rest := ih first fun other member => targetsInside other (List.mem_cons_of_mem _ member)
      dsimp only
      generalize after.addEach (addTo rename source) row = answer at rest
      obtain ⟨outcome, last⟩ := answer
      cases outcome with
      | error e =>
        obtain ⟨other, member, infinite⟩ := rest
        exact ⟨other, List.mem_cons_of_mem _ member, infinite⟩
      | ok => simpa [Added, List.append_assoc] using rest

theorem addRowsAdds (inside : network.Inside)
    (renamed : ∀ node < network.nodeCount, rename node < idMap.nodeCount) (counted : Bool)
    (nodes : List Nat) (j : Journal) :
    Added idMap config layout (links ++ network.links rename nodes) (¬ network.Finite)
      (addRows network rename counted nodes b j).1 := by
  induction nodes generalizing links b j with
  | nil => simpa [addRows, Network.links, Added] using runs
  | cons node nodes ih =>
    have first : Added idMap config layout
        (links ++ (network.row node).map fun entry => ⟨rename node, rename entry.1, [entry.2]⟩)
        (∃ entry ∈ network.row node, Weight.isFinite entry.2 = false)
        (b.addEach (addTo rename (rename node)) (network.row node)) := by
      by_cases small : node < network.nodeCount
      · exact addRowAdds runs valid single (renamed node small) fun entry member =>
          renamed _ (inside node entry.1 (List.mem_map_of_mem member))
      · rw [Network.rowOutside (Nat.not_lt.mp small)]
        simpa [addEach, Added] using runs
    rw [addRows]
    generalize b.addEach (addTo rename (rename node)) (network.row node) = answer at first
    obtain ⟨outcome, after⟩ := answer
    cases outcome with
    | error e =>
      obtain ⟨entry, member, infinite⟩ := first
      exact fun finite => by simp [finite node entry member] at infinite
    | ok =>
      have rest := ih first (if counted then j.note (.progress (network.degree node)) else j)
      simpa [Network.links, List.append_assoc] using rest

end Adding

theorem tellsSummed {g : Graph α} {count : Nat} {topology : Aggregation} {arrivals : List (Link α)}
    (tells : Graph.Tells count ⟨[weightKey], [.sum], topology⟩ links arrivals g) :
    Summed count links arrivals g.network where
  nodes := (Graph.networkNodes g).trans tells.nodes
  inside := tells.networkInside
  arrived := tells.tells.arrived
  ascending node := by
    by_cases small : node < count
    · rw [tells.targets small]
      exact (tells.tells.folded rfl node small).1
    · have none : g.network.targets node = [] := by
        refine List.eq_nil_iff_forall_not_mem.mpr fun target member => small ?_
        have there := Network.sourceInside member
        rwa [Graph.networkNodes, tells.nodes] at there
      rw [none]
      exact List.Pairwise.nil
  linked := tells.linked
  weights source sourceInside target targetInside := by
    obtain ⟨a, policy, found⟩ := tells.between rfl rfl sourceInside targetInside
    cases policy
    exact found

theorem Summed.mirrors {count : Nat} {arrivals : List (Link α)} {next : Network α}
    (summed : Summed count
      ((network.links id (List.range network.nodeCount)).flatMap (Link.oriented .undirected))
      arrivals next) (u v : Nat) :
    v ∈ next.targets u ↔ v ∈ network.targets u ∨ u ∈ network.targets v := by
  rw [summed.linked, Link.bothWays, Network.linksTargets, Network.linksTargets]
  simp

def summingLayout : PropertyLayout := ⟨[weightKey], [.sum], .sum⟩

theorem summingRuns {count : Nat} {orientation : Orientation} {concurrency : Nat} {b : Builder α}
    (made : Builder.make (.direct count) (summing orientation concurrency) = .ok b) :
    (summing orientation concurrency : BuilderConfig α).Valid summingLayout ∧
      Runs (.direct count) (summing orientation concurrency) summingLayout [] b := by
  obtain ⟨layout, -, valid, runs⟩ := makeRuns made
  have same := PropertyLayout.makeLayout valid.made
  obtain rfl : layout = summingLayout := same
  exact ⟨valid, runs⟩

theorem summingLayoutMade {orientation : Orientation} {concurrency : Nat}
    (workers : 0 < concurrency) :
    (summing orientation concurrency : BuilderConfig α).layout = .ok summingLayout := by
  have some : concurrency ≠ 0 := Nat.ne_of_gt workers
  simp [BuilderConfig.layout, summing, BuilderConfig.default, requirePositive, some,
    BuilderConfig.keys, BuilderConfig.aggregations]
  rfl

def Unmade (network : Network α) (rename : Nat → Nat) (count : Nat) (orientation : Orientation)
    (concurrency : Nat) (e : EngineError) : Prop :=
  Builder.make (.direct count) (summing orientation concurrency : BuilderConfig α) = .error e ∨
    ¬ network.Finite ∨ ShortOfMemory count (summing orientation concurrency) summingLayout
      (network.links rename (List.range network.nodeCount)) e

theorem rebuildTells {count : Nat} {orientation : Orientation} {concurrency : Nat}
    (made : Builder.make (.direct count) (summing orientation concurrency) = .ok b)
    (words : count ≤ UInt64.size) (inside : network.Inside)
    (renamed : ∀ node < network.nodeCount, rename node < count) (counted : Bool)
    (c : LouvainConfig α) (t : Termination) :
    Run.Ends t (Unmade network rename count orientation concurrency)
      (fun g => ∃ arrivals, Graph.Tells count summingLayout
        ((network.links rename (List.range network.nodeCount)).flatMap (Link.oriented orientation))
        arrivals g)
      (rebuild network rename counted c b) := by
  obtain ⟨valid, runs⟩ := summingRuns made
  have adds : BatchQueue.Adds
      (fun batch b _ j => addRows network rename counted batch.elements b j)
      (fun before b => Runs (.direct count) (summing orientation concurrency) summingLayout
        (network.links rename before) b)
      (Unmade network rename count orientation concurrency) := by
    intro batch before b t j runs
    have added := addRowsAdds runs valid rfl inside renamed counted batch.elements j
    dsimp only
    generalize (addRows network rename counted batch.elements b j).1 = answer at added
    obtain ⟨outcome, after⟩ := answer
    cases outcome with
    | error e => exact .inr (.inl added)
    | ok => simpa [Added, Network.links] using added
  have covers := BatchQueue.consecutiveCovers network.nodeCount c.minBatchSize c.concurrency
  unfold rebuild
  refine (covers.ends adds c.concurrency (by simpa [Network.links] using runs) t).bind ?_
  intro b runs
  have built : Run.Ends t (Unmade network rename count orientation concurrency)
      (fun r => Graph.Tells count summingLayout
        ((network.links rename (List.range network.nodeCount)).flatMap (Link.oriented orientation))
        (arrivedLinks (summing orientation concurrency)
          (network.links rename (List.range network.nodeCount))) ⟨r, none⟩) b.build := by
    intro j
    have ended := runs.delivers t j fun r built =>
      built.graph valid words (Network.linksWithin inside renamed) (Network.linksFull _) none
    generalize (b.build t j).1 = outcome at ended
    cases outcome with
    | error e => exact ended.imp_right fun short => .inr (.inr short)
    | ok r => exact ended
  exact built.bind fun r tells => Run.Ends.pure ⟨_, tells⟩

theorem collapseTells {dense : Array Nat} {count : Nat} (words : count ≤ UInt64.size)
    (inside : network.Inside) (renamed : ∀ node < network.nodeCount, dense.getD node 0 < count)
    (c : LouvainConfig α) (t : Termination) :
    Run.Ends t (Unmade network (fun node => dense.getD node 0) count .natural c.concurrency)
      (fun g => ∃ arrivals, Graph.Tells count summingLayout
        (network.links (fun node => dense.getD node 0) (List.range network.nodeCount)) arrivals g)
      (collapse network dense count c) := by
  unfold collapse
  refine ((Run.endsAnswer _).failing fun _ refused => .inl refused).bind fun b made => ?_
  refine (rebuildTells made words inside renamed true c t).bind fun g tells => ?_
  have natural : ∀ links : List (Link α), links.flatMap (Link.oriented .natural) = links :=
    List.flatMap_singleton'
  rw [natural] at tells
  exact (Run.endsLog _ _ _).bind fun _ _ => Run.Ends.pure tells

theorem collapseEnds {dense : Array Nat} {count : Nat} (words : count ≤ UInt64.size)
    (inside : network.Inside) (renamed : ∀ node < network.nodeCount, dense.getD node 0 < count)
    (c : LouvainConfig α) (t : Termination) :
    Run.Ends t (Unmade network (fun node => dense.getD node 0) count .natural c.concurrency)
      (fun g => g.nodeCount = count ∧ ∃ arrivals, Summed count
        (network.links (fun node => dense.getD node 0) (List.range network.nodeCount)) arrivals
        g.network)
      (collapse network dense count c) :=
  (collapseTells words inside renamed c t).imp fun _ ⟨arrivals, tells⟩ =>
    ⟨tells.nodes, arrivals, tellsSummed tells⟩

theorem symmetricCopyTells {g : Graph α} (words : g.nodeCount ≤ UInt64.size)
    (inside : g.network.Inside) (c : LouvainConfig α) (t : Termination) :
    Run.Ends t (Unmade g.network id g.nodeCount .undirected c.concurrency)
      (fun copy => ∃ arrivals, Graph.Tells g.nodeCount summingLayout
        ((g.network.links id (List.range g.nodeCount)).flatMap (Link.oriented .undirected)) arrivals
        copy)
      (symmetricCopy g c) := by
  unfold symmetricCopy
  refine ((Run.endsAnswer _).failing fun _ refused => .inl refused).bind fun b made => ?_
  have nodes := Graph.networkNodes g
  have renamed : ∀ node < g.network.nodeCount, id node < g.nodeCount := fun node small =>
    nodes ▸ small
  have ends := rebuildTells made words inside renamed false c t
  rwa [nodes] at ends

theorem symmetricCopyEnds {g : Graph α} (words : g.nodeCount ≤ UInt64.size)
    (inside : g.network.Inside) (c : LouvainConfig α) (t : Termination) :
    Run.Ends t (Unmade g.network id g.nodeCount .undirected c.concurrency)
      (fun copy => copy.nodeCount = g.nodeCount ∧ ∃ arrivals, Summed g.nodeCount
        ((g.network.links id (List.range g.nodeCount)).flatMap (Link.oriented .undirected)) arrivals
        copy.network)
      (symmetricCopy g c) :=
  (symmetricCopyTells words inside c t).imp fun _ ⟨arrivals, tells⟩ =>
    ⟨tells.nodes, arrivals, tellsSummed tells⟩

end Louvain
end CommunityGraph
