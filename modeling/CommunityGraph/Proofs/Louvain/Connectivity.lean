import CommunityGraph.Proofs.Components
import CommunityGraph.Proofs.Louvain.Hierarchy

/-! Communities stay inside the weakly connected components, whatever the weights are and however they
compare. -/
namespace CommunityGraph.Louvain
variable {α : Type} [Weight α] {g : Graph α} {network : Network α} {total : α}

theorem Advances.bound {before after : Stage α} (advances : Advances network total before after)
    (inside : network.Inside) (bound : Bound network before.root) : Bound network after.root := by
  obtain ⟨place, level, representatives, communities, merges⟩ := advances.merges
  intro u hu v hv same
  have label := (merges.new u hu v hv).mp same
  have placed : Bound network place := fun x hx y hy same =>
    bound x hx y hy ((merges.old x hx y hy).mpr same)
  have fitsU := (merges.fitting.fits _ (merges.stands.places u hu)).2
  have fitsV := (merges.fitting.fits _ (merges.stands.places v hv)).2
  rw [← label] at fitsV
  exact merges.derived.linked inside placed hu hv (fitsU.trans fitsV.symm)

theorem Searched.linked (searched : Searched g network) {u v : Nat} :
    Linked network.edges u v ↔ Linked g.network.edges u v := by
  unfold Searched at searched
  rw [← Graph.networkNodes] at searched
  split at searched
  · rw [searched]
  · obtain ⟨arrivals, summed⟩ := searched
    refine Linked.congr fun a b => ?_
    rw [Network.memEdges, Network.memEdges, Network.memEdges, Network.memEdges, summed.mirrors,
      summed.mirrors, @or_comm (a ∈ g.network.targets b), or_self]

section Results
variable {c : LouvainConfig α} {r : LouvainResult α} {t : Termination} {j j' : Journal}

/-- Nodes of one community are linked, so every search for components gives them one id. -/
theorem communitiesLinked (made : g.Made) (ran : compute g c t j = (.ok r, j')) :
    ∀ labels ∈ r.communities :: r.intermediate.getD [], labels.length = g.nodeCount ∧
      ∀ u < g.nodeCount, ∀ v < g.nodeCount, labels[u]? = labels[v]? →
        Linked g.edges u v ∧
        ∀ (w : ComponentsConfig) (flag : Termination) (k k' : Journal) (result : ComponentsResult),
          Components.compute g w flag k = (.ok result, k') → result.ids[u]? = result.ids[v]? := by
  obtain ⟨network, last, stages, searched, course, -, reports⟩ := computeReports made ran
  have inside := searched.inside made.inside
  have bound : ∀ stage ∈ firstStage network :: stages, Bound network stage.root :=
    course.always (fun u _ v _ same => by
      obtain rfl : u = v := same
      exact .refl _ _) fun _ _ advances bound => advances.bound inside bound
  intro labels member
  obtain ⟨stage, there, rfl⟩ := course.presented reports labels member
  rw [shownLength, ← searched.nodes]
  refine ⟨rfl, fun u hu v hv same => ?_⟩
  have root := (shownSame c.consecutiveIds stage hu hv).mp same
  have linked := searched.linked.mp (bound stage there u hu v hv root)
  refine ⟨made.edges ▸ linked, fun w flag k k' result found => ?_⟩
  rw [searched.nodes] at hu hv
  exact ((Components.computeLabels made.inside found).linked u hu v hv).mpr linked

theorem sampleLinked : ∃ (g : Graph Rat) (r : LouvainResult Rat) (j : Journal), g.Made ∧
    compute g sampleSearch .always .empty = (.ok r, j) ∧ r.communities = [0, 0, 0] ∧
    Linked g.edges 0 2 := by
  obtain ⟨g, r, j, made, ran, labels⟩ := sampleRuns
  obtain ⟨length, linked⟩ := communitiesLinked made ran r.communities (by simp)
  rw [labels] at length linked
  have nodes : g.nodeCount = 3 := length.symm
  exact ⟨g, r, j, made, ran, labels, (linked 0 (by omega) 2 (by omega) rfl).1⟩

end Results
end CommunityGraph.Louvain
