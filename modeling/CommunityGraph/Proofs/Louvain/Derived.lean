import CommunityGraph.Proofs.Louvain.Rebuild

/-! Graphs that are collapsed again and again. Each node of such a graph stands for the input nodes that
have become part of it, and each relationship for relationships between them. -/
namespace CommunityGraph.Louvain
variable {α : Type} [Weight α] {network level next : Network α} {place : Nat → Nat}

inductive Derived (network : Network α) : (Nat → Nat) → Network α → Prop where
  | first : Derived network id network
  | collapsed {place : Nat → Nat} {level next : Network α} {dense : Nat → Nat} {count : Nat}
      {arrivals : List (Link α)} (derived : Derived network place level)
      (small : ∀ node < level.nodeCount, dense node < count)
      (summed : Summed count (level.links dense (List.range level.nodeCount)) arrivals next) :
      Derived network (fun node => dense (place node)) next

theorem Derived.inside (derived : Derived network place level) (inside : network.Inside) :
    level.Inside := by
  cases derived with
  | first => exact inside
  | collapsed _ _ summed => exact summed.inside

theorem Derived.targets (derived : Derived network place level) {a b : Nat} :
    b ∈ level.targets a ↔ ∃ u v, v ∈ network.targets u ∧ place u = a ∧ place v = b := by
  induction derived generalizing a b with
  | first =>
    constructor
    · exact fun member => ⟨a, b, member, rfl, rfl⟩
    · rintro ⟨u, v, member, rfl, rfl⟩
      exact member
  | collapsed _ _ summed ih =>
    rw [summed.linked, Network.linksTargets]
    constructor
    · rintro ⟨x, y, member, rfl, rfl⟩
      obtain ⟨u, v, joined, rfl, rfl⟩ := ih.mp member
      exact ⟨u, v, joined, rfl, rfl⟩
    · rintro ⟨u, v, joined, rfl, rfl⟩
      exact ⟨_, _, ih.mpr ⟨u, v, joined, rfl, rfl⟩, rfl, rfl⟩

def Bound (network : Network α) (place : Nat → Nat) : Prop :=
  ∀ u < network.nodeCount, ∀ v < network.nodeCount, place u = place v → Linked network.edges u v

theorem Derived.step (derived : Derived network place level) (inside : network.Inside) {a b : Nat}
    (member : (a, b) ∈ level.edges) :
    ∃ u < network.nodeCount, ∃ v < network.nodeCount,
      Linked network.edges u v ∧ place u = a ∧ place v = b := by
  obtain ⟨u, v, joined, atA, atB⟩ := derived.targets.mp (Network.memEdges.mp member)
  exact ⟨u, Network.sourceInside joined, v, inside _ _ joined,
    .edge (Network.memEdges.mpr joined), atA, atB⟩

theorem Derived.linked (derived : Derived network place level) (inside : network.Inside)
    (bound : Bound network place) {u v : Nat} (hu : u < network.nodeCount) (hv : v < network.nodeCount)
    (linked : Linked level.edges (place u) (place v)) : Linked network.edges u v := by
  have reach : ∀ c, Linked level.edges (place u) c →
      ∀ w < network.nodeCount, place w = c → Linked network.edges u w := by
    intro c path
    induction path with
    | refl => exact fun w hw same => bound u hu w hw same.symm
    | @tail b c _ step ih =>
      intro w hw same
      obtain ⟨x, hx, y, hy, joined, atB, atC⟩ : ∃ x < network.nodeCount, ∃ y < network.nodeCount,
          Linked network.edges x y ∧ place x = b ∧ place y = c := by
        rcases step with forth | back
        · exact derived.step inside forth
        · obtain ⟨y, hy, x, hx, joined, atC, atB⟩ := derived.step inside back
          exact ⟨x, hx, y, hy, joined.symm, atB, atC⟩
      exact ((ih x hx atB).trans joined).trans (bound y hy w hw (atC.trans same.symm))
  exact reach _ linked v hv rfl

end CommunityGraph.Louvain
