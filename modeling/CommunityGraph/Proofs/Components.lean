import Mathlib
import CommunityGraph.Components
import CommunityGraph.Proofs.Batch.Coverage
import CommunityGraph.Proofs.Graph.Reading
import CommunityGraph.Proofs.Numbering

/-! Weakly connected components are what paths of relationships make of the nodes. They are numbered by
their smallest nodes, so directions, policies, batches and threads leave no trace in them. -/
namespace CommunityGraph.Components

section Description
open Classical

noncomputable def firsts (n : Nat) (edges : List (Nat × Nat)) : List Nat :=
  (List.range n).filter fun node => ∀ other < node, ¬ Linked edges other node

noncomputable def component (n : Nat) (edges : List (Nat × Nat)) (first : Nat) : List Nat :=
  (List.range n).filter fun node => Linked edges first node

structure Describes (n : Nat) (edges : List (Nat × Nat)) (result : ComponentsResult) : Prop where
  nodes : result.ids.length = n
  linked : ∀ a < n, ∀ b < n, result.ids[a]? = result.ids[b]? ↔ Linked edges a b
  numbered : ∀ node < n, ∃ number first, result.ids[node]? = some number ∧
    (firsts n edges)[number]? = some first ∧ Linked edges first node
  count : result.count = (firsts n edges).length
  components : result.components = (firsts n edges).map (component n edges)
  ascending : ∀ members ∈ result.components, members.Pairwise (· < ·)
  ordered : result.components.map List.head? = (firsts n edges).map some
  partition : result.components.flatten.Perm (List.range n)

variable {n : Nat} {edges : List (Nat × Nat)} {root : Nat → Nat}

structure Labels (n : Nat) (edges : List (Nat × Nat)) (ids : List Nat) : Prop where
  nodes : ids.length = n
  numbered : Numbered ids
  linked : ∀ a < n, ∀ b < n, ids[a]? = ids[b]? ↔ Linked edges a b

theorem renumberLabels (linked : ∀ a < n, ∀ b < n, root a = root b ↔ Linked edges a b) :
    Labels n edges (renumber ((List.range n).map root)) where
  nodes := by simp [renumberLength]
  numbered := renumberNumbered _
  linked a insideA b insideB := by
    have same := (renumberAlike ((List.range n).map root)).same a
      (by simpa [renumberLength] using insideA) b (by simpa [renumberLength] using insideB)
    rw [same, ← linked a insideA b insideB]
    simp [insideA, insideB]

theorem Labels.placed {ids : List Nat} (labels : Labels n edges ids) {number : Nat}
    (small : number < labelBound ids) :
    ids.idxOf number < n ∧ ids[ids.idxOf number]? = some number := by
  have inside := labels.numbered.placeInside small
  exact ⟨labels.nodes ▸ inside, by rw [List.getElem?_eq_getElem inside, List.getElem_idxOf]⟩

theorem Labels.linkedPlace {ids : List Nat} (labels : Labels n edges ids) {number node : Nat}
    (small : number < labelBound ids) (inside : node < n) :
    Linked edges (ids.idxOf number) node ↔ ids[node]? = some number := by
  obtain ⟨there, found⟩ := labels.placed small
  rw [← labels.linked _ there _ inside, found, eq_comm]

theorem Labels.idInside {ids : List Nat} (labels : Labels n edges ids) {node : Nat}
    (inside : node < n) : ∃ number < labelBound ids, ids[node]? = some number := by
  have there : node < ids.length := labels.nodes.symm ▸ inside
  exact ⟨ids[node], ltLabelBound (List.getElem_mem there), List.getElem?_eq_getElem there⟩

theorem Labels.firsts {ids : List Nat} (labels : Labels n edges ids) :
    firsts n edges = (List.range (labelBound ids)).map ids.idxOf := by
  refine List.Pairwise.eq_of_mem_iff (List.pairwise_lt_range.filter _)
    labels.numbered.placesAscend fun node => ?_
  simp only [Components.firsts, List.mem_filter, List.mem_range, decide_eq_true_eq, List.mem_map]
  constructor
  · rintro ⟨inside, alone⟩
    obtain ⟨number, small, found⟩ := labels.idInside inside
    refine ⟨number, small, ?_⟩
    have linked := (labels.linkedPlace small inside).mpr found
    by_contra apart
    refine alone _ (Nat.lt_of_le_of_ne ?_ apart) linked
    obtain ⟨there, rfl⟩ := List.getElem?_eq_some_iff.mp found
    exact idxOfLe found
  · rintro ⟨number, small, rfl⟩
    obtain ⟨inside, found⟩ := labels.placed small
    refine ⟨inside, fun other less linked => ?_⟩
    have same := (labels.linked other (Nat.lt_trans less inside) _ inside).mpr linked
    rw [found] at same
    exact Nat.not_le.mpr less (idxOfLe same)

theorem Labels.components {ids : List Nat} (labels : Labels n edges ids) :
    classify (labelBound ids) ids = (Components.firsts n edges).map (component n edges) := by
  rw [classifyMembers, labels.firsts, List.map_map]
  refine List.map_congr_left fun number member => ?_
  rw [membersOf, labels.nodes, Function.comp_apply, component]
  refine List.filter_congr fun node inside => ?_
  rw [decide_eq_decide, labels.linkedPlace (List.mem_range.mp member) (List.mem_range.mp inside)]

theorem componentHead {first : Nat} (member : first ∈ firsts n edges) :
    (component n edges first).head? = some first := by
  obtain ⟨inside, alone⟩ := List.mem_filter.mp member
  rw [component, List.head?_filter, List.find?_range_eq_some]
  refine ⟨by simpa using Linked.refl edges first, inside, fun other less => ?_⟩
  have apart := of_decide_eq_true alone other less
  simpa using fun linked : Linked edges first other => apart linked.symm

theorem Labels.describes {ids : List Nat} (labels : Labels n edges ids) :
    Describes n edges ⟨ids, labelBound ids⟩ where
  nodes := labels.nodes
  linked := labels.linked
  numbered node inside := by
    obtain ⟨number, small, found⟩ := labels.idInside inside
    refine ⟨number, ids.idxOf number, found, ?_, (labels.linkedPlace small inside).mpr found⟩
    simp [labels.firsts, small]
  count := by simp [labels.firsts]
  components := labels.components
  ascending members member := by
    rw [ComponentsResult.components, classifyMembers] at member
    obtain ⟨number, -, rfl⟩ := List.mem_map.mp member
    exact List.pairwise_lt_range.filter _
  ordered := by
    rw [ComponentsResult.components, labels.components, List.map_map]
    exact List.map_congr_left fun first member => componentHead member
  partition := by
    rw [ComponentsResult.components, ← labels.nodes]
    exact classifyPerm fun label member => ltLabelBound member

end Description

section Computation
variable {α : Type} {network : Network α} {n : Nat} {root : Nat → Nat}
open DisjointSet

def pairsFrom (network : Network α) (nodes : List Nat) : List (Nat × Nat) :=
  nodes.flatMap fun node => (network.targets node).map fun target => (node, target)

theorem uniteBatchRepresents {nodes : List Nat} {sets : DisjointSet}
    (represents : Represents n root sets) (within : Within n (pairsFrom network nodes)) :
    Represents n ((pairsFrom network nodes).foldl (joined n) root)
      (uniteBatch network nodes sets) := by
  induction nodes generalizing root sets with
  | nil => exact represents
  | cons node nodes ih =>
    simp only [pairsFrom, List.flatMap_cons] at within ⊢
    rw [List.foldl_append]
    have here := represents.unions fun pair member => within pair (List.mem_append_left _ member)
    exact ih here fun pair member => within pair (List.mem_append_right _ member)

theorem pairsWithin (inside : network.Inside) (nodes : List Nat) :
    Within network.nodeCount (pairsFrom network nodes) := by
  rintro ⟨source, target⟩ member
  obtain ⟨node, -, made⟩ := List.mem_flatMap.mp member
  obtain ⟨other, there, same⟩ := List.mem_map.mp made
  cases same
  exact ⟨Network.sourceInside there, inside _ _ there⟩

variable {Failure : EngineError → Prop}

theorem uniteEnds (inside : network.Inside) {queue : BatchQueue}
    (covers : queue.Covers network.nodeCount) (threads : Nat) (t : Termination) :
    Run.Ends t Failure
      (Represents network.nodeCount (network.edges.foldl (joined network.nodeCount) id))
      (unite network queue threads) := by
  have adds : BatchQueue.Adds (uniteAction network) (fun before sets =>
      Represents network.nodeCount
        ((pairsFrom network before).foldl (joined network.nodeCount) id) sets)
      Failure := by
    intro batch before sets t j holds
    simp only [uniteAction, pairsFrom, List.flatMap_append, List.foldl_append]
    exact uniteBatchRepresents holds (pairsWithin inside _)
  exact covers.ends adds threads (makeRepresents _) t

theorem numberEnds {sets : DisjointSet} (represents : Represents n root sets) (t : Termination) :
    Run.Ends t Failure
      (fun result => result = ⟨renumber ((List.range n).map root),
        labelBound (renumber ((List.range n).map root))⟩) (number n sets) := by
  unfold number
  rw [represents.communities.1]
  exact (Run.endsNote _).bind fun _ _ => Run.Ends.pure rfl

theorem queueCovers (g : Graph α) (c : ComponentsConfig) : (queue g c).Covers g.nodeCount := by
  have spans := Batch.degreeRangesSpan (fun node => .ofNat (g.adjacency.degree node))
    (Batch.sizeFor g.relationshipCount c.minBatchSize c.threadCount) g.nodeCount 0 0 0
    (Nat.le_refl 0)
  rw [Nat.zero_add] at spans
  exact BatchQueue.partitionsCover spans

theorem validateOk {c : ComponentsConfig} (threads : 0 < c.threadCount)
    (batch : 0 < c.minBatchSize) : c.validate = .ok () := by
  rw [ComponentsConfig.validate, requirePositivePasses _ threads, requirePositivePasses _ batch]
  rfl

theorem computeEnds [Weight α] {g : Graph α} (inside : g.network.Inside) (c : ComponentsConfig)
    (t : Termination) :
    Run.Ends t (fun e => c.validate = .error e)
      (fun result => ∃ root : Nat → Nat,
        (∀ a b, root a = root b ↔ Linked g.network.edges a b) ∧
        result = ⟨renumber ((List.range g.nodeCount).map root),
          labelBound (renumber ((List.range g.nodeCount).map root))⟩) (compute g c) := by
  have covers := queueCovers g c
  have nodes := Graph.networkNodes g
  rw [← nodes] at covers
  have checked : Run.Ends t (fun e => c.validate = .error e) (fun _ => True)
      (Run.ofExcept c.validate) := by
    refine Run.endsExcept ?_
    cases c.validate with
    | error e => exact .inr rfl
    | ok => trivial
  unfold compute
  refine checked.bind fun _ _ => ?_
  refine ((uniteEnds inside covers c.threadCount t).phase _ _).bind fun sets represents => ?_
  rw [nodes] at represents
  refine ((numberEnds represents t).phase _ _).bind fun result numbered => ?_
  exact (Run.endsLog _ _ _).bind fun _ _ =>
    Run.Ends.pure ⟨_, fun a b => unionsLinked _ _ a b, numbered⟩

theorem computeLabels [Weight α] {g : Graph α} (inside : g.network.Inside) {c : ComponentsConfig}
    {t : Termination} {j j' : Journal} {result : ComponentsResult}
    (ran : compute g c t j = (.ok result, j')) :
    Labels g.nodeCount g.network.edges result.ids := by
  obtain ⟨root, linked, rfl⟩ := (computeEnds inside c t).ok ran
  exact renumberLabels fun a _ b _ => linked a b

end Computation

section Graphs
variable {α : Type} {n : Nat} {edges : List (Nat × Nat)}
open Builder

def ends (link : Link α) : Nat × Nat := (link.source, link.target)

theorem memEnds {links : List (Link α)} {a b : Nat} :
    (a, b) ∈ links.map ends ↔ ∃ link ∈ links, link.source = a ∧ link.target = b := by
  simp [ends]

theorem orientedEnds (orientation : Orientation) (links : List (Link α)) (a b : Nat) :
    ((a, b) ∈ (links.flatMap (Link.oriented orientation)).map ends ∨
        (b, a) ∈ (links.flatMap (Link.oriented orientation)).map ends) ↔
      ((a, b) ∈ links.map ends ∨ (b, a) ∈ links.map ends) := by
  have either : ∀ link : Link α,
      (∃ other ∈ link.oriented orientation, ends other = (a, b) ∨ ends other = (b, a)) ↔
        ends link = (a, b) ∨ ends link = (b, a) := by
    intro link
    cases orientation <;> simp [Link.oriented, Link.swap, ends] <;> grind
  simp only [List.map_flatMap, List.mem_flatMap, List.mem_map, ← exists_or, ← and_or_left, either]

theorem tellsLinked [Weight α] {g : Graph α} {layout : PropertyLayout} {orientation : Orientation}
    {links arrivals : List (Link α)}
    (tells : Graph.Tells n layout (links.flatMap (Link.oriented orientation)) arrivals g) (a b : Nat) :
    Linked g.network.edges a b ↔ Linked (links.map ends) a b := by
  refine Linked.congr fun x y => ?_
  rw [← orientedEnds orientation links]
  simp only [Network.memEdges, tells.linked, memEnds]

def canonical (n : Nat) (edges : List (Nat × Nat)) : ComponentsResult :=
  let ids := renumber ((List.range n).map (edges.foldl (DisjointSet.joined n) id))
  ⟨ids, labelBound ids⟩

theorem canonicalDescribes (n : Nat) (edges : List (Nat × Nat)) :
    Describes n edges (canonical n edges) :=
  (renumberLabels fun a _ b _ => DisjointSet.unionsLinked n edges a b).describes

theorem computeCanonical [Weight α] {g : Graph α} (inside : g.network.Inside)
    (linked : ∀ a b, Linked g.network.edges a b ↔ Linked edges a b) {c : ComponentsConfig}
    (threads : 1 ≤ c.threadCount) (batch : 1 ≤ c.minBatchSize) {flag : Termination}
    (running : ¬ flag.Stops) (k : Journal) :
    (compute g c flag k).1 = .ok (canonical g.nodeCount edges) := by
  have ended := computeEnds inside c flag k
  generalize (compute g c flag k).1 = outcome at ended
  cases outcome with
  | error e =>
    rcases ended with ⟨-, stops⟩ | refused
    · exact absurd stops running
    · rw [validateOk threads batch] at refused
      cases refused
  | ok result =>
    obtain ⟨root, same, rfl⟩ := ended
    have alike : Alike ((List.range g.nodeCount).map root)
        ((List.range g.nodeCount).map (edges.foldl (DisjointSet.joined g.nodeCount) id)) :=
      alikeRange fun a _ b _ => by rw [same, linked, DisjointSet.unionsLinked]
    rw [renumberCongr alike]
    rfl

def takenEnds [Weight α] (idMap : IdMap) (config : BuilderConfig α) (layout : PropertyLayout)
    (additions : List (Addition α)) : List (Nat × Nat) :=
  (additions.filterMap (link? idMap config layout)).map ends

theorem takesAll [Weight α] {idMap : IdMap} {layout : PropertyLayout} {values : List α}
    (config : BuilderConfig α) (within : DisjointSet.Within idMap.nodeCount edges)
    (usable : Usable layout values) :
    takenEnds idMap config layout (edges.map fun edge => .internal edge.1 edge.2 values) = edges := by
  have taken : ∀ edge ∈ edges,
      (link? idMap config layout (.internal edge.1 edge.2 values)).map ends = some edge := by
    intro edge member
    obtain ⟨source, target⟩ := within edge member
    rw [link?, if_pos ⟨source, target, usable⟩]
    rfl
  rw [takenEnds, List.filterMap_map, List.map_filterMap]
  exact (List.filterMap_congr taken).trans List.filterMap_some

theorem componentsFound (n : Nat) (edges : List (Nat × Nat)) :
    ∃ result, Describes n edges result ∧
      ∀ {α : Type} [Weight α] {idMap : IdMap} {config : BuilderConfig α} {b : Builder α},
        idMap.Dense → idMap.nodeCount = n → Builder.make idMap config = .ok b →
        ∃ layout, config.layout = .ok layout ∧ ∀ additions : List (Addition α),
          takenEnds idMap config layout additions = edges → ∀ (t : Termination) (j : Journal),
          Delivers t (ShortOfMemory n config layout (additions.filterMap (link? idMap config layout)))
            (fun r => ∀ (ids : Option IdTable) (c : ComponentsConfig), 1 ≤ c.threadCount →
              1 ≤ c.minBatchSize → ∀ flag : Termination, ¬ flag.Stops → ∀ k : Journal,
                (compute ⟨r, ids⟩ c flag k).1 = .ok result)
            ((b.performAll additions).build t j).1 := by
  refine ⟨canonical n edges, canonicalDescribes n edges, ?_⟩
  rintro α _ idMap config b dense rfl opened
  obtain ⟨layout, found, valid, runs⟩ := makeRuns opened
  refine ⟨layout, found, ?_⟩
  rintro additions rfl t j
  refine (runs.performAll valid additions).delivers t j ?_
  intro r built ids c threads batch flag running k
  have tells := built.graph valid dense.words (linksInside dense config layout additions)
    (linksFull idMap valid additions) ids
  rw [← tells.nodes]
  exact computeCanonical tells.networkInside (tellsLinked tells) threads batch running k

def sampleEdges : List (Nat × Nat) := [(3, 1), (2, 0), (1, 3), (4, 4)]

theorem sampleComponents : ∃ b r result, Builder.make (.direct 5) sampleConfig = .ok b ∧
    ((b.performAll (sampleEdges.map fun edge => .internal edge.1 edge.2 [1, 1])).build
      .always .empty).1 = .ok r ∧
    (compute ⟨r, none⟩ ⟨2, 1⟩ .always .empty).1 = .ok result ∧ Describes 5 sampleEdges result := by
  have dense : (IdMap.direct 5).Dense := IdMap.directDense (by decide)
  obtain ⟨b, made⟩ : ∃ b, make (.direct 5) sampleConfig = .ok b := ⟨_, rfl⟩
  have works : (outcome (.direct 5) sampleConfig
    (sampleEdges.map fun edge => .internal edge.1 edge.2 [1, 1])).toBool = true := by cbv
  obtain ⟨r, built⟩ := outcomeOk made works
  obtain ⟨result, describes, rest⟩ := componentsFound 5 sampleEdges
  obtain ⟨layout, found, delivered⟩ := rest dense rfl made
  obtain rfl : _ = layout := Except.ok.inj found
  have within : DisjointSet.Within (IdMap.direct 5).nodeCount sampleEdges := by
    unfold DisjointSet.Within
    decide
  have usable : Usable ⟨["weight", "cost"], [.single, .sum], .single⟩ ([1, 1] : List Rat) := by
    decide
  have taken := takesAll sampleConfig within usable
  have answers := delivered _ taken .always .empty
  rw [built] at answers
  exact ⟨b, r, result, made, built, answers none ⟨2, 1⟩ (by decide) (by decide) .always
    (by simp [Termination.Stops, Termination.always]) .empty, describes⟩

end Graphs
end CommunityGraph.Components
