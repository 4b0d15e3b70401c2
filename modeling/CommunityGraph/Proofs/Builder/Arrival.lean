import CommunityGraph.Proofs.Builder.Reading

/-! The entries of relationships in the order of their arrival, and the list of a node as what has
arrived for it. -/
namespace CommunityGraph
variable {α : Type}

structure IdMap.Dense (idMap : IdMap) : Prop where
  words : idMap.nodeCount ≤ UInt64.size
  inside : ∀ external node, idMap.mapped? external = some node → node < idMap.nodeCount

theorem IdMap.directDense {nodeCount : Nat} (words : nodeCount ≤ UInt64.size) :
    (IdMap.direct nodeCount).Dense where
  words := words
  inside external node mapped := by
    simp only [IdMap.mapped?, Option.ite_none_right_eq_some, Option.some.injEq] at mapped
    obtain ⟨⟨positive, small⟩, rfl⟩ := mapped
    simp only [IdMap.nodeCount]
    omega

namespace Link

def swap (link : Link α) : Link α := ⟨link.target, link.source, link.values⟩

def oriented (orientation : Orientation) (link : Link α) : List (Link α) :=
  match orientation with
  | .natural => [link]
  | .reverse => [link.swap]
  | .undirected => [link, link.swap]

def stage (link : Link α) : StagedEntry α := ⟨link.source, UInt64.ofNat link.target, link.values⟩

theorem entriesOriented (orientation : Orientation) (link : Link α) :
    link.entries orientation = (link.oriented orientation).map stage := by
  cases orientation <;> rfl

theorem inverseOriented {orientation : Orientation} (oneWay : orientation ≠ .undirected)
    (link : Link α) :
    link.inverseEntries orientation = ((link.oriented orientation).map swap).map stage := by
  cases orientation with
  | natural => rfl
  | reverse => rfl
  | undirected => exact absurd rfl oneWay

def Inside (nodeCount : Nat) (links : List (Link α)) : Prop :=
  ∀ link ∈ links, link.source < nodeCount ∧ link.target < nodeCount

def outgoing (node : Nat) (links : List (Link α)) : List (Nat × List α) :=
  (links.filter fun link => link.source = node).map fun link => (link.target, link.values)

def between (source target : Nat) (links : List (Link α)) : List (List α) :=
  (links.filter fun link => link.source = source ∧ link.target = target).map Link.values

theorem betweenOutgoing (source target : Nat) (links : List (Link α)) :
    between source target links =
      ((outgoing source links).filter fun pair => pair.1 = target).map Prod.snd := by
  simp [between, outgoing, List.filter_map, List.filter_filter, Function.comp_def,
    Bool.and_comm]

theorem betweenSwap (source target : Nat) (links : List (Link α)) :
    between source target (links.map swap) = between target source links := by
  simp [between, List.filter_map, Function.comp_def, swap, Bool.and_comm]
  rfl

theorem toNatOfNat {n nodeCount : Nat} (words : nodeCount ≤ UInt64.size) (small : n < nodeCount) :
    (UInt64.ofNat n).toNat = n :=
  UInt64.toNat_ofNat_of_lt' (Nat.lt_of_lt_of_le small words)

theorem readStaged {nodeCount : Nat} (words : nodeCount ≤ UInt64.size) {links : List (Link α)}
    (inside : Inside nodeCount links) (node : Nat) :
    (StagedEntry.rowsOf node (links.map stage)).map Row.read = outgoing node links := by
  induction links with
  | nil => rfl
  | cons link links ih =>
    have rest := ih fun other member => inside other (List.mem_cons_of_mem _ member)
    have small := toNatOfNat words (inside link (by simp)).2
    simp only [StagedEntry.rowsOf, outgoing, List.map_cons] at rest ⊢
    by_cases here : link.source = node
    · simp [stage, here, StagedEntry.row, Row.read, small, ← rest]
    · simp [stage, here, ← rest]

end Link

theorem Row.readAt {target : Nat} (small : target < UInt64.size) (rows : List (Row α)) :
    ((rows.map Row.read).filter fun pair => pair.1 = target).map Prod.snd =
      Row.valuesAt (UInt64.ofNat target) rows := by
  have same : ∀ row : Row α, row.target.toNat = target ↔ row.target = UInt64.ofNat target := by
    intro row
    rw [← UInt64.toNat_inj, UInt64.toNat_ofNat_of_lt' small]
  simp [Row.valuesAt, List.filter_map, Function.comp_def, Row.read, same]

namespace Builder
open AdjacencyBuffer Relationships Link

def arrivedLinks (config : BuilderConfig α) (links : List (Link α)) : List (Link α) :=
  Schedule.arrivals config.bufferSize config.concurrency
    (links.map (Link.oriented config.orientation))

variable {config : BuilderConfig α} {layout : PropertyLayout} {links : List (Link α)}
  {nodeCount : Nat}

theorem arrivedStaged (config : BuilderConfig α) (links : List (Link α)) :
    arrived config links = (arrivedLinks config links).map Link.stage := by
  rw [arrivedLinks, ← Schedule.arrivalsMap, List.map_map, arrived]
  congr 1
  exact List.map_congr_left fun link _ => entriesOriented config.orientation link

theorem inverseStaged (oneWay : config.orientation ≠ .undirected) (links : List (Link α)) :
    inverseArrived config links =
      ((arrivedLinks config links).map Link.swap).map Link.stage := by
  rw [arrivedLinks, ← Schedule.arrivalsMap, ← Schedule.arrivalsMap, List.map_map, List.map_map,
    inverseArrived]
  congr 1
  exact List.map_congr_left fun link _ => inverseOriented oneWay link

theorem arrivedPerm (valid : config.Valid layout) (links : List (Link α)) :
    (arrivedLinks config links).Perm (links.flatMap (Link.oriented config.orientation)) :=
  Schedule.arrivalsPerm config.bufferSize valid.concurrency _

theorem orientedInside (inside : Inside nodeCount links) (orientation : Orientation) :
    Inside nodeCount (links.flatMap (Link.oriented orientation)) := by
  intro link member
  obtain ⟨original, taken, made⟩ := List.mem_flatMap.mp member
  obtain ⟨source, target⟩ := inside original taken
  revert made
  cases orientation <;> simp only [oriented, List.mem_cons, List.not_mem_nil, or_false]
  · rintro rfl
    exact ⟨source, target⟩
  · rintro rfl
    exact ⟨target, source⟩
  · rintro (rfl | rfl)
    · exact ⟨source, target⟩
    · exact ⟨target, source⟩

theorem arrivedInside (valid : config.Valid layout) (inside : Inside nodeCount links) :
    Inside nodeCount (arrivedLinks config links) :=
  fun link member => orientedInside inside config.orientation link
    ((arrivedPerm valid links).mem_iff.mp member)

theorem swapInside (inside : Inside nodeCount links) : Inside nodeCount (links.map Link.swap) := by
  intro link member
  obtain ⟨original, taken, rfl⟩ := List.mem_map.mp member
  exact (inside original taken).symm

theorem mappedInside {idMap : IdMap} (dense : idMap.Dense) {source target : Int}
    {values : List α} {link : Link α} (made : mappedLink? idMap source target values = some link) :
    link.source < idMap.nodeCount ∧ link.target < idMap.nodeCount := by
  unfold mappedLink? at made
  split at made
  · rename_i s t mappedSource mappedTarget
    cases made
    exact ⟨dense.inside _ _ mappedSource, dense.inside _ _ mappedTarget⟩
  · cases made

variable [Weight α]

theorem linksInside {idMap : IdMap} (dense : idMap.Dense) (config : BuilderConfig α)
    (layout : PropertyLayout) (additions : List (Addition α)) :
    Inside idMap.nodeCount (additions.filterMap (link? idMap config layout)) := by
  intro link member
  obtain ⟨addition, -, made⟩ := List.mem_filterMap.mp member
  cases addition with
  | plain source target => exact mappedInside dense made
  | valued source target values =>
    simp only [link?, Option.ite_none_right_eq_some] at made
    exact mappedInside dense made.2
  | internal source target values =>
    simp only [link?, Option.ite_none_right_eq_some, Option.some.injEq] at made
    obtain ⟨⟨sourceInside, targetInside, -⟩, rfl⟩ := made
    exact ⟨sourceInside, targetInside⟩

variable {adjacency : AdjacencyList} {properties : List (RelationshipProperty α)}

theorem Listed.between
    (lists : Listed nodeCount config layout (links.map Link.stage) adjacency properties)
    (valid : config.Valid layout) (words : nodeCount ≤ UInt64.size)
    (inside : Inside nodeCount links) {source target : Nat} (sourceInside : source < nodeCount)
    (targetInside : target < nodeCount) :
    ((listed adjacency properties source).filter fun pair => pair.1 = target).map Prod.snd =
      Row.collapsed layout (between source target links) := by
  have small := Nat.lt_of_lt_of_le targetInside words
  rw [(lists.reads valid sourceInside).listed, Row.readAt small, finalRows, Row.valuesAtArrange,
    ← Row.readAt small, readStaged words inside, betweenOutgoing]

end Builder
end CommunityGraph
