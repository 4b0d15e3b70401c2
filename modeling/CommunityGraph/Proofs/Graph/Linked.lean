import Mathlib.Logic.Relation
import CommunityGraph.Proofs.DisjointSet

/-! Nodes that a path of relationships joins, in whichever direction each relationship is. -/
namespace CommunityGraph

def Linked (edges : List (Nat × Nat)) : Nat → Nat → Prop :=
  Relation.ReflTransGen fun a b => (a, b) ∈ edges ∨ (b, a) ∈ edges

namespace Linked
variable {edges others : List (Nat × Nat)} {a b c : Nat}

theorem refl (edges : List (Nat × Nat)) (a : Nat) : Linked edges a a := Relation.ReflTransGen.refl

theorem trans (first : Linked edges a b) (second : Linked edges b c) : Linked edges a c :=
  Relation.ReflTransGen.trans first second

theorem symm (linked : Linked edges a b) : Linked edges b a := by
  induction linked with
  | refl => exact refl _ _
  | @tail b c _ step ih =>
    have back : Linked edges c b := Relation.ReflTransGen.single step.symm
    exact back.trans ih

theorem edge (member : (a, b) ∈ edges) : Linked edges a b :=
  Relation.ReflTransGen.single (.inl member)

theorem congr (same : ∀ a b, ((a, b) ∈ edges ∨ (b, a) ∈ edges) ↔ ((a, b) ∈ others ∨ (b, a) ∈ others)) :
    Linked edges a b ↔ Linked others a b := by
  have equal : (fun a b => (a, b) ∈ edges ∨ (b, a) ∈ edges) =
      fun a b => (a, b) ∈ others ∨ (b, a) ∈ others := by
    funext a b
    exact propext (same a b)
  rw [Linked, Linked, equal]

end Linked

namespace DisjointSet

theorem unionsLinked (n : Nat) (edges : List (Nat × Nat)) (a b : Nat) :
    edges.foldl (joined n) id a = edges.foldl (joined n) id b ↔ Linked edges a b := by
  rw [unionsSame]
  constructor
  · intro connected
    induction connected with
    | rel a b step =>
      rcases step with same | member
      · obtain rfl : a = b := same
        exact .refl _ _
      · exact .edge member
    | refl a => exact .refl _ _
    | symm _ _ _ ih => exact ih.symm
    | trans _ _ _ _ _ first second => exact first.trans second
  · intro linked
    induction linked with
    | refl => exact .refl _
    | tail _ step ih =>
      rcases step with forth | back
      · exact .trans _ _ _ ih (.rel _ _ (.inr forth))
      · exact .trans _ _ _ ih (.symm _ _ (.rel _ _ (.inr back)))

end DisjointSet
end CommunityGraph
