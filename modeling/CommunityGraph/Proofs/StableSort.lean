import Mathlib.Data.List.Basic

/-! Sorting by a key is stable: the elements of each key stay in order. -/
namespace CommunityGraph.StableSort
variable {β γ : Type} [DecidableEq γ]

theorem filterSorted (le : γ → γ → Bool) (transitive : ∀ a b c, le a b → le b c → le a c)
    (total : ∀ a b, le a b || le b a) (key : β → γ) (k : γ) (xs : List β) :
    (xs.mergeSort fun a b => le (key a) (key b)).filter (fun x => key x = k) =
      xs.filter fun x => key x = k := by
  let chosen := fun x : β => decide (key x = k)
  have reflexive : le k k = true := by simpa using total k k
  have equal : (xs.filter chosen).Pairwise fun a b => le (key a) (key b) = true := by
    refine List.pairwise_of_forall_mem_list fun a ha b hb => ?_
    have left : key a = k := by simpa [chosen] using (List.mem_filter.mp ha).2
    have right : key b = k := by simpa [chosen] using (List.mem_filter.mp hb).2
    rw [left, right]
    exact reflexive
  have through : (xs.filter chosen).Sublist (xs.mergeSort fun a b => le (key a) (key b)) :=
    List.sublist_mergeSort (fun a b c => transitive (key a) (key b) (key c))
      (fun a b => total (key a) (key b)) equal List.filter_sublist
  have again := through.filter chosen
  rw [List.filter_filter] at again
  simp only [Bool.and_self] at again
  have length := ((List.mergeSort_perm xs fun a b => le (key a) (key b)).filter chosen).length_eq
  exact (again.eq_of_length length.symm).symm

end CommunityGraph.StableSort
