/-! Values that lie one after the other on a page. What is appended to the page later does not move
them. -/
namespace CommunityGraph
variable {α : Type}

def Segment (page : Array α) (offset : Nat) (values : List α) : Prop :=
  ∃ before after, page.toList = before ++ values ++ after ∧ before.length = offset

namespace Segment
variable {page : Array α} {offset : Nat} {xs ys : List α}

theorem whole (page : Array α) (values : List α) :
    Segment (page ++ values.toArray) page.size values :=
  ⟨page.toList, [], by simp, by simp⟩

theorem left (h : Segment page offset (xs ++ ys)) : Segment page offset xs := by
  obtain ⟨before, after, same, place⟩ := h
  exact ⟨before, ys ++ after, by simp [same], place⟩

theorem right (h : Segment page offset (xs ++ ys)) : Segment page (offset + xs.length) ys := by
  obtain ⟨before, after, same, place⟩ := h
  exact ⟨before ++ xs, after, by simp [same], by simp [place]⟩

theorem grown (h : Segment page offset xs) (more : Array α) : Segment (page ++ more) offset xs := by
  obtain ⟨before, after, same, place⟩ := h
  exact ⟨before, after ++ more.toList, by simp [same], place⟩

theorem fits (h : Segment page offset xs) : offset + xs.length ≤ page.size := by
  obtain ⟨before, after, same, place⟩ := h
  have size := congrArg List.length same
  simp only [Array.length_toList, List.length_append] at size
  omega

theorem extracted (h : Segment page offset xs) :
    (page.extract offset (offset + xs.length)).toList = xs := by
  obtain ⟨before, after, same, place⟩ := h
  subst place
  simp [same, List.extract_eq_take_drop]

theorem head {x : α} (h : Segment page offset (x :: xs)) : page[offset]? = some x := by
  obtain ⟨before, after, same, place⟩ := h
  subst place
  rw [← Array.getElem?_toList, same]
  simp

end Segment
end CommunityGraph
