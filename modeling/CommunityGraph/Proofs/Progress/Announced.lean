import CommunityGraph.Proofs.Progress.Programs

/-! Progress beside what was announced for it. -/
namespace CommunityGraph
open Run hiding pure
variable {α : Type}

namespace Phase

def progress (p : Phase) : Nat := progressOf p.notes

def Fulfilled (p : Phase) : Prop := p.progress = p.volume

structure Counted (most : Nat) (p : Phase) : Prop where
  once : p.name ≠ "Local moving" → p.Fulfilled
  sweeps : p.name = "Local moving" → 0 < sweepsOf p.notes ∧ sweepsOf p.notes ≤ most
  swept : p.name = "Local moving" → p.progress = sweepsOf p.notes * p.volume

theorem Fulfilled.counted {p : Phase} (fulfilled : p.Fulfilled) (other : p.name ≠ "Local moving")
    (most : Nat) : p.Counted most :=
  ⟨fun _ => fulfilled, fun moving => absurd moving other, fun moving => absurd moving other⟩

theorem Counted.fulfilled {most : Nat} {p : Phase} (counted : p.Counted most) :
    p.Fulfilled ↔ (p.name = "Local moving" → sweepsOf p.notes = 1 ∨ p.volume = 0) := by
  by_cases moving : p.name = "Local moving"
  · rw [Fulfilled, counted.swept moving, mul_left_eq_self₀]
    exact ⟨fun single _ => single, fun single => single moving⟩
  · exact ⟨fun _ there => absurd there moving, fun _ => counted.once moving⟩

end Phase

namespace Run
variable {Good : Phase → Prop} {work : Phase → Nat} {name : String} {volume most : Nat} {m : Run α}

theorem Makes.fulfils (makes : Makes volume m) (steps : Steps Entry.Inner m) :
    Works Phase.Fulfilled (fun _ => 0) 0 name volume m :=
  ⟨steps, fun _ _ _ wrote => ⟨le_rfl, fun a ran => (makes.told wrote).whole ⟨a, ran⟩⟩⟩

theorem Makes.works (makes : Makes volume m) (steps : Steps Entry.Inner m) (fits : volume ≤ most)
    (good : ∀ p : Phase, p.name = name → p.Fulfilled → Good p) :
    Works Good Phase.progress most name volume m := by
  refine ⟨steps, fun t j notes wrote => ?_⟩
  have made := makes.told wrote
  exact ⟨made.most.trans fits, fun a ran => good _ rfl (made.whole ⟨a, ran⟩)⟩

theorem Traces.good (traces : Traces Good work most m) (t : Termination) (j : Journal) :
    ∃ added passed failed, Balanced t m j added passed failed ∧ ∀ p ∈ passed, Good p := by
  obtain ⟨added, passed, failed, balanced, good, -⟩ := traces.balanced t j
  exact ⟨added, passed, failed, balanced, good⟩

end Run

theorem Phased.measured {measure : Entry → Nat} (outside : ∀ e : Entry, e.Outer → measure e = 0)
    (closes : ∀ name, measure (.finish name) = 0 ∧ measure (.failure name) = 0)
    {entries : List Entry} {passed : List Phase} {failed : Option Phase}
    (phased : Phased entries passed failed) :
    (entries.map measure).sum = ((passed ++ failed.toList).map fun p =>
      measure (.begin p.name p.volume) + (p.notes.map measure).sum).sum := by
  induction phased with
  | done => rfl
  | outside outer _ ih => rw [List.map_cons, List.sum_cons, outside _ outer, ih, Nat.zero_add]
  | passed _ _ ih => simp [Phase.entries, ih, closes, Nat.add_assoc]
  | failed => simp [Phase.entries, closes]

theorem Phased.progress {entries : List Entry} {passed : List Phase} {failed : Option Phase}
    (phased : Phased entries passed failed) :
    progressOf entries = ((passed ++ failed.toList).map Phase.progress).sum := by
  have outside : ∀ e : Entry, e.Outer → e.delta = 0 := by
    intro e outer
    cases e with
    | transition | log => rfl
    | _ => exact outer.elim
  rw [progressOf, phased.measured outside fun _ => ⟨rfl, rfl⟩]
  congr 1
  exact List.map_congr_left fun p _ => Nat.zero_add _

def Entry.announced : Entry → Nat
  | .begin _ volume => volume
  | _ => 0

def announcedIn (entries : List Entry) : Nat := (entries.map Entry.announced).sum

theorem Phased.announced {entries : List Entry} {passed : List Phase} {failed : Option Phase}
    (phased : Phased entries passed failed) :
    announcedIn entries = ((passed ++ failed.toList).map Phase.volume).sum := by
  have outside : ∀ e : Entry, e.Outer → e.announced = 0 := by
    intro e outer
    cases e with
    | transition | log => rfl
    | _ => exact outer.elim
  have inside : ∀ e : Entry, e.Inner → e.announced = 0 := by
    intro e inner
    cases e with
    | progress | log => rfl
    | _ => exact inner.elim
  rw [announcedIn, phased.measured outside fun _ => ⟨rfl, rfl⟩]
  congr 1
  refine List.map_congr_left fun p member => ?_
  have none : (p.notes.map Entry.announced).sum = 0 :=
    measuredNothing fun e there => inside e (phased.inner p member e there)
  exact congrArg (p.volume + ·) none

theorem Phased.fulfilled {entries : List Entry} {passed : List Phase}
    (phased : Phased entries passed none) (all : ∀ p ∈ passed, p.Fulfilled) :
    progressOf entries = announcedIn entries := by
  rw [phased.progress, phased.announced]
  simp only [Option.toList_none, List.append_nil]
  rw [List.map_congr_left all]

section Entries

theorem Link.outgoingCount {nodeCount : Nat} {links : List (Link α)}
    (inside : ∀ link ∈ links, link.source < nodeCount) :
    ((List.range nodeCount).map fun node => (outgoing node links).length).sum = links.length := by
  have all := (Link.outgoingAll inside fun _ _ => ()).length_eq
  simpa [List.length_flatMap] using all

theorem Network.linksCount (network : Network α) (rename : Nat → Nat) :
    (network.links rename (List.range network.nodeCount)).length =
      ((List.range network.nodeCount).map network.degree).sum := by
  simp only [links, List.length_flatMap, List.length_map]
  rfl

variable [Weight α] {g : Graph α} {nodeCount : Nat} {layout : PropertyLayout}
  {links arrivals : List (Link α)}

theorem Graph.Tells.countDegrees (tells : Graph.Tells nodeCount layout links arrivals g) :
    g.relationshipCount = ((List.range g.network.nodeCount).map g.network.degree).sum := by
  rw [tells.countRead, Graph.networkNodes, tells.nodes]
  congr 1
  refine List.map_congr_left fun node member => ?_
  rw [← tells.targets (List.mem_range.mp member), Network.targets, List.length_map, Network.degree]

theorem Graph.Tells.countFew (tells : Graph.Tells nodeCount layout links arrivals g) :
    g.relationshipCount ≤ links.length := by
  rw [tells.countRead, ← Link.outgoingCount fun link member => (tells.inside link member).1]
  refine List.sum_le_sum fun node member => ?_
  have small := List.mem_range.mp member
  have targets : (g.neighbours node).length ≤ ((Link.outgoing node links).map Prod.fst).length := by
    cases folds : layout.folds with
    | false => exact (tells.tells.kept folds node small).2.1.length_eq.le
    | true =>
      obtain ⟨ascending, same⟩ := tells.tells.folded folds node small
      have distinct : (g.neighbours node).Nodup := ascending.imp ne_of_lt
      exact (distinct.subperm fun target there => (same target).mp there).length_le
  rwa [List.length_map] at targets

end Entries

namespace Louvain
variable [Weight α] {g : Graph α} {n most : Nat} {level : Level α} {c : LouvainConfig α} {total : α}

structure Level.Counts (n most : Nat) (level : Level α) : Prop where
  inside : level.network.Inside
  degrees : level.degrees.size = level.network.nodeCount
  nodes : level.network.nodeCount ≤ n
  listed : level.relationshipCount =
    ((List.range level.network.nodeCount).map level.network.degree).sum
  few : level.relationshipCount ≤ most

theorem countsTold {nodeCount : Nat} {layout : PropertyLayout} {links arrivals : List (Link α)}
    (tells : Graph.Tells nodeCount layout links arrivals g) (nodes : nodeCount ≤ n)
    (few : g.relationshipCount ≤ most) (representatives : Array Nat) :
    Level.Counts n most (.ofGraph g representatives) where
  inside := tells.networkInside
  degrees := by simp [Level.ofGraph, Network.weightedDegrees, Network.nodeCount]
  nodes := (Graph.networkNodes g).trans tells.nodes ▸ nodes
  listed := tells.countDegrees
  few := few

/-- A symmetric copy has each relationship in both directions, so it can have twice as many. -/
def mostRelationships (g : Graph α) : Nat :=
  if g.orientation = .undirected then g.relationshipCount else 2 * g.relationshipCount

theorem firstLevelCounts (made : g.Made) (c : LouvainConfig α) {answer : Level α × α × α}
    (answers : Answers (firstLevel g c) answer) :
    Level.Counts g.nodeCount (mostRelationships g) answer.1 := by
  obtain ⟨nodeCount, layout, links, arrivals, -, tells⟩ := made.tells
  have ends : ∀ t, Ends t (fun _ => True)
      (fun answer => Level.Counts g.nodeCount (mostRelationships g) answer.1) (firstLevel g c) := by
    intro t
    unfold firstLevel mostRelationships
    dsimp only
    by_cases undirected : g.orientation = .undirected
    · rw [if_pos undirected, if_pos undirected]
      refine (endsNote _).bind fun _ _ => Ends.pure ?_
      exact countsTold tells tells.nodes.ge le_rfl _
    · rw [if_neg undirected, if_neg undirected]
      refine ((symmetricCopyTells made.words made.inside c t).failing fun _ _ => trivial).bind ?_
      rintro copy ⟨arrivals, copied⟩
      have both : copy.relationshipCount ≤ 2 * g.relationshipCount := by
        refine copied.countFew.trans ?_
        rw [tells.countDegrees, ← Network.linksCount g.network id, ← Graph.networkNodes]
        simp [Link.oriented, List.length_flatMap, Nat.mul_comm]
      refine (endsNote _).bind fun _ _ => Ends.pure ?_
      exact countsTold copied le_rfl both _
  exact Ends.answers ends answers

theorem Level.Counts.folded (counts : level.Counts n most) (words : n ≤ UInt64.size)
    {dense : List Nat} {count : Nat} (folds : Folds c total level dense count) {next : Graph α}
    (answers : Answers (collapse level.network dense.toArray count c) next)
    (representatives : Array Nat) : Level.Counts n most (.ofGraph next representatives) := by
  obtain ⟨communities, previous, current, gain, moved, applied⟩ := folds
  have fitting := Ends.answers
    (LocalMoving.runEnds counts.inside counts.degrees c.coloring c.maxLocalIterations) moved
  have numbers := judgeNumbers fitting applied
  have fewer : count ≤ level.network.nodeCount := by
    have all := List.nodup_range.subperm fun number member =>
      numbers.covered number (List.mem_range.mp member)
    simpa [numbers.length] using all.length_le
  have small := fewer.trans counts.nodes
  obtain ⟨arrivals, tells⟩ := Ends.answers
    (collapseTells (small.trans words) counts.inside numbers.small c) answers
  refine countsTold tells small (tells.countFew.trans ?_) representatives
  rw [Network.linksCount, ← counts.listed]
  exact counts.few

theorem working (words : n ≤ UInt64.size) (most : Nat) (valid : c.validate = .ok ()) (total : α) :
    Working (Phase.Counted c.maxLocalIterations) Phase.progress (c.maxLocalIterations * n) most
      (Level.Counts n most) c total where
  moves level counts := by
    refine ⟨LocalMoving.runSteps _ _ _, fun t j notes wrote => ?_⟩
    have swept := (LocalMoving.runWrites _ _ _).told wrote
    refine ⟨swept.bound.trans (Nat.mul_le_mul_left _ counts.nodes), fun communities ran => ?_⟩
    obtain ⟨few, some⟩ := swept.rounds ⟨_, ran⟩
    exact ⟨fun other => absurd rfl other, fun _ => ⟨some (validateSweeps valid), few⟩,
      fun _ => swept.whole ⟨_, ran⟩⟩
  folds level dense count counts _ := by
    have makes := collapseMakes level.network dense.toArray count c
    rw [← counts.listed] at makes
    exact makes.works (collapseSteps _ _ _ _) counts.few fun p name fulfilled =>
      fulfilled.counted (name ▸ by decide) _
  holds _ _ _ _ representatives counts folds answers :=
    counts.folded words folds answers representatives

theorem firstLevelWorks (g : Graph α) (c : LouvainConfig α) :
    Works (Phase.Counted c.maxLocalIterations) Phase.progress g.nodeCount "Initialization" g.nodeCount
      (firstLevel g c) :=
  (firstLevelMakes g c).works (firstLevelSteps g c) le_rfl fun p name fulfilled =>
    fulfilled.counted (name ▸ by decide) _

theorem computeCounts (made : g.Made) (valid : c.validate = .ok ()) :
    Traces (Phase.Counted c.maxLocalIterations) Phase.progress
      (g.nodeCount + (c.maxLocalIterations * g.nodeCount + (c.maxIterations - 1) *
        (mostRelationships g + c.maxLocalIterations * g.nodeCount))) (compute g c) :=
  computeTraces (firstLevelWorks g c) (fun _ answers => firstLevelCounts made c answers)
    fun total => working made.words (mostRelationships g) valid total

def planned (nodeCount relationshipCount maxIterations : Nat) : Nat :=
  nodeCount + (nodeCount + relationshipCount) * maxIterations

theorem plannedVolume (nodeCount relationshipCount maxIterations : Nat) :
    (Algorithm.louvainTask nodeCount relationshipCount maxIterations).totalVolume =
      .ofNat (planned nodeCount relationshipCount maxIterations) := by
  simp [Algorithm.louvainTask, Task.group, Task.leaf, Task.iterative, Task.totalVolume,
    Task.totalVolumes, planned]

end Louvain

/-- Loading and the search for components make just the progress that they announce. So does a community
search, but for the phases in which nodes are moved in several sweeps. -/
theorem progressAnnounced [Weight α] :
    (∀ (content : Option (List UInt8)) (c : LoaderConfig) (t : Termination) (j : Journal),
      ∃ added passed failed, Balanced t (GraphFile.loadFile content c) j added passed failed ∧
        ∀ p ∈ passed, p.Fulfilled) ∧
    (∀ (g : Graph α) (c : ComponentsConfig) (t : Termination) (j : Journal),
      ∃ added passed failed, Balanced t (Components.compute g c) j added passed failed ∧
        ∀ p ∈ passed, p.Fulfilled) ∧
    (∀ (g : Graph α) (c : LouvainConfig α) (t : Termination) (j : Journal), g.Made →
      c.validate = .ok () →
      ∃ added passed failed, Balanced t (Louvain.compute g c) j added passed failed ∧
        (∀ p ∈ passed, p.Counted c.maxLocalIterations ∧
          (p.Fulfilled ↔ (p.name = "Local moving" → sweepsOf p.notes = 1 ∨ p.volume = 0))) ∧
        progressOf added ≤ g.nodeCount + c.maxIterations * (c.maxLocalIterations * g.nodeCount) +
          (c.maxIterations - 1) * Louvain.mostRelationships g ∧
        (g.orientation = .undirected → c.maxLocalIterations = 1 →
          Louvain.planned g.nodeCount g.relationshipCount c.maxIterations < UInt64.size →
          progressOf added ≤ (Algorithm.louvainTask g.nodeCount g.relationshipCount
            c.maxIterations).totalVolume.toNat)) := by
  refine ⟨fun content c => ?_, fun g c => ?_, fun g c t j made valid => ?_⟩
  · cases content with
    | none => exact (Steps.traces (stepsFail _) : Traces _ (fun _ => 0) 0 _).good
    | some bytes =>
      exact (GraphFile.loadTraces
        ((GraphFile.readLinesMakes _ _).fulfils (GraphFile.readLinesSteps _ _))
        fun records b => (GraphFile.addAndBuildMakes _ _ _).fulfils (GraphFile.addAndBuildSteps _ _ _)).good
  · exact (Components.computeTraces
      ((Components.uniteMakes g c).fulfils (Components.uniteSteps _ _ _))
      fun sets => (Components.numberMakes _ _).fulfils (Components.numberSteps _ _)).good
  · obtain ⟨added, passed, failed, balanced, good, bounded⟩ :=
      (Louvain.computeCounts made valid).balanced t j
    rw [← balanced.phased.progress] at bounded
    have some := Louvain.validateIterations valid
    obtain ⟨levels, several⟩ : ∃ levels, c.maxIterations = levels + 1 := ⟨c.maxIterations - 1, by omega⟩
    rw [several, Nat.add_sub_cancel] at bounded ⊢
    refine ⟨added, passed, failed, balanced, fun p member => ⟨good p member, (good p member).fulfilled⟩,
      ?_, fun undirected single fits => ?_⟩
    · refine bounded.trans_eq ?_
      ring
    · have relationships : Louvain.mostRelationships g = g.relationshipCount := if_pos undirected
      rw [single, relationships] at bounded
      rw [Louvain.plannedVolume, UInt64.toNat_ofNat_of_lt' fits]
      calc progressOf added
          ≤ g.nodeCount + (1 * g.nodeCount + levels * (g.relationshipCount + 1 * g.nodeCount)) := bounded
        _ ≤ g.nodeCount + (1 * g.nodeCount + levels * (g.relationshipCount + 1 * g.nodeCount)) +
            g.relationshipCount := Nat.le_add_right _ _
        _ = g.nodeCount + (g.nodeCount + g.relationshipCount) * (levels + 1) := by ring

section Sample
open Louvain

def tallies (outcome : Except EngineError (Relationships Rat)) (c : LouvainConfig Rat) :
    Option (Graph Rat × Nat × Nat) :=
  match outcome with
  | .error _ => none
  | .ok r =>
    match compute ⟨r, none⟩ c .always .empty with
    | (.error _, _) => none
    | (.ok _, j) => some (⟨r, none⟩, announcedIn j.entries.toList, progressOf j.entries.toList)

def sampleBuilt : Except EngineError (Relationships Rat) :=
  Builder.outcome (.direct 3) ⟨.undirected, .none, [.weight], false, false, 1, 8⟩ [.internal 0 1 [1]]

theorem sampleTallies : ∃ (g : Graph Rat) (r : LouvainResult Rat) (j : Journal), g.Made ∧
    g.orientation = .undirected ∧ g.nodeCount = 3 ∧ g.relationshipCount = 2 ∧
    compute g sampleSearch .always .empty = (.ok r, j) ∧ announcedIn j.entries.toList = 6 ∧
    progressOf j.entries.toList = 9 := by
  have works : (tallies sampleBuilt sampleSearch).map (fun (g, announced, made) =>
      (g.orientation, g.nodeCount, g.relationshipCount, announced, made)) =
      some (.undirected, 3, 2, 6, 9) := by
    unfold tallies sampleBuilt compute levels
    simp only [judge, renumberPlaces]
    cbv
  unfold tallies at works
  cases built : sampleBuilt with
  | error e =>
    rw [built] at works
    cases works
  | ok relationships =>
    simp only [built] at works
    cases ran : compute ⟨relationships, none⟩ sampleSearch .always .empty with
    | mk outcome j =>
      rw [ran] at works
      cases outcome with
      | error e => cases works
      | ok r =>
        simp only [Option.map_some, Option.some.injEq, Prod.mk.injEq] at works
        obtain ⟨undirected, nodes, relationshipCount, announced, made⟩ := works
        exact ⟨_, r, j, builtMade (IdMap.directDense (by decide)) built, undirected, nodes,
          relationshipCount, ran, announced, made⟩

/-- Two sweeps over the nodes make more progress than was announced for moving them, and than was planned
for the whole search. With a single one the search keeps to its plan. -/
theorem sampleAnnounced : ∃ g : Graph Rat, g.Made ∧ sampleSearch.validate = .ok () ∧
    (∃ added passed failed, Balanced .always (compute g sampleSearch) .empty added passed failed ∧
      (∃ p ∈ passed, p.name = "Local moving" ∧ p.progress = sweepsOf p.notes * p.volume ∧
        p.progress ≠ p.volume) ∧
      (Algorithm.louvainTask g.nodeCount g.relationshipCount 1).totalVolume.toNat <
        progressOf added) ∧
    ∃ added passed failed, Balanced .always (compute g { sampleSearch with maxLocalIterations := 1 })
        .empty added passed failed ∧
      progressOf added ≤
        (Algorithm.louvainTask g.nodeCount g.relationshipCount 1).totalVolume.toNat := by
  obtain ⟨g, r, j, made, undirected, nodes, relationships, ran, announced, done⟩ := sampleTallies
  have valid : sampleSearch.validate = .ok () := by decide +kernel
  obtain ⟨added, passed, failed, balanced, counted, -, -⟩ :=
    progressAnnounced.2.2 g sampleSearch .always .empty made valid
  obtain rfl := balanced.unfailed ran
  have wrote : added = j.entries.toList := by
    have written := balanced.wrote
    rw [ran] at written
    exact written.symm
  obtain ⟨once, single, ended, told, -, -, within⟩ := progressAnnounced.2.2 g
    { sampleSearch with maxLocalIterations := 1 } .always .empty made (by decide +kernel)
  refine ⟨g, made, valid, ⟨added, passed, _, balanced, ?_, ?_⟩, once, single, ended, told,
    within undirected rfl (by rw [nodes, relationships]; decide)⟩
  · by_contra all
    have fulfilled : ∀ p ∈ passed, p.Fulfilled := by
      intro p member
      by_contra more
      have moving : p.name = "Local moving" := by
        by_contra other
        exact more ((counted p member).1.once other)
      exact all ⟨p, member, moving, (counted p member).1.swept moving, more⟩
    have same := balanced.phased.fulfilled fulfilled
    rw [wrote, announced, done] at same
    cases same
  · rw [wrote, done, nodes, relationships]
    decide

end Sample

end CommunityGraph
