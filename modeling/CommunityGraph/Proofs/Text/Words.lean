import Mathlib
import CommunityGraph.Text.Blank

/-! Words of a text, and the texts that given words make. Blanks stand around the words, and one at least
between two of them. -/
namespace CommunityGraph.Text
variable {text : List Char}

section Splitting

theorem wordsNone (none : text.dropWhile isBlank = []) : words text = [] := by
  rw [words]
  split
  · rfl
  · rename_i found
    rw [none] at found
    cases found

theorem wordsNext {c : Char} {rest : List Char} (next : text.dropWhile isBlank = c :: rest) :
    words text = (c :: rest.takeWhile notBlank) :: words (rest.dropWhile notBlank) := by
  rw [words]
  split
  · rename_i found
    rw [next] at found
    cases found
  · rename_i found
    cases next.symm.trans found
    rfl

theorem wordsBlank (blank : ∀ c ∈ text, isBlank c = true) : words text = [] :=
  wordsNone (List.dropWhile_eq_nil_iff.mpr blank)

theorem wordsReturned (text : List Char) : words (text ++ ['\r']) = words text := by
  induction text using words.induct with
  | case1 text none =>
    rw [wordsNone none, wordsNone]
    rw [List.dropWhile_append, none]
    rfl
  | case2 text c rest next ih =>
    have further : (text ++ ['\r']).dropWhile isBlank = c :: (rest ++ ['\r']) := by
      rw [List.dropWhile_append, next]
      rfl
    have word : (rest ++ ['\r']).takeWhile notBlank = rest.takeWhile notBlank := by
      rw [List.takeWhile_append]
      split
      · rename_i whole
        have all := List.takeWhile_prefix notBlank (l := rest) |>.eq_of_length whole
        rw [all]
        exact List.append_nil rest
      · rfl
    rw [wordsNext further, wordsNext next, word, List.dropWhile_append]
    congr 1
    -- After the last word only the return is left, which is blank.
    split
    · rename_i whole
      rw [List.isEmpty_iff.mp whole]
      exact (wordsNone rfl).trans (wordsNone rfl).symm
    · exact ih

end Splitting

section Layout

def Whole (word : List Char) : Prop := word ≠ [] ∧ ∀ c ∈ word, isBlank c = false

inductive Spaced : List (List Char) → List Char → Prop where
  | blank {gap : List Char} (blank : ∀ c ∈ gap, isBlank c = true) : Spaced [] gap
  | word {gap word after : List Char} {words : List (List Char)}
      (blank : ∀ c ∈ gap, isBlank c = true) (whole : Whole word)
      (apart : ∀ c ∈ after.head?, isBlank c = true) (next : Spaced words after) :
      Spaced (word :: words) (gap ++ word ++ after)

theorem spacedWords (text : List Char) : Spaced (words text) text := by
  induction text using words.induct with
  | case1 text none =>
    rw [wordsNone none]
    exact .blank (List.dropWhile_eq_nil_iff.mp none)
  | case2 text c rest next ih =>
    have first : isBlank c = false := by
      have here := List.head?_dropWhile_not isBlank text
      rw [next] at here
      simpa using here
    have parts : text.takeWhile isBlank ++ (c :: rest.takeWhile notBlank) ++ rest.dropWhile notBlank =
        text := by
      rw [List.append_assoc, List.cons_append, List.takeWhile_append_dropWhile, ← next,
        List.takeWhile_append_dropWhile]
    rw [wordsNext next]
    refine parts ▸ .word (fun _ => List.mem_takeWhile_imp) ⟨List.cons_ne_nil _ _, fun d member => ?_⟩
      (fun d head => ?_) ih
    · rcases List.mem_cons.mp member with rfl | later
      · exact first
      · simpa [notBlank] using List.mem_takeWhile_imp later
    · have here := List.head?_dropWhile_not notBlank rest
      rw [Option.mem_def.mp head] at here
      simpa [notBlank] using here

theorem wordsSpaced {ws : List (List Char)} : words text = ws ↔ Spaced ws text := by
  constructor
  · rintro rfl
    exact spacedWords text
  intro spaced
  induction spaced with
  | blank blank => exact wordsBlank blank
  | @word gap word after ws blank whole apart next ih =>
    obtain ⟨c, rest, rfl⟩ := List.exists_cons_of_ne_nil whole.1
    have here : (gap ++ (c :: rest) ++ after).dropWhile isBlank = c :: (rest ++ after) := by
      have first := whole.2 c List.mem_cons_self
      rw [List.append_assoc, List.dropWhile_append_of_pos blank]
      simp [first]
    have inside : ∀ d ∈ rest, notBlank d = true := fun d member => by
      simpa [notBlank] using whole.2 d (List.mem_cons_of_mem c member)
    have stops : after.takeWhile notBlank = [] ∧ after.dropWhile notBlank = after := by
      cases after with
      | nil => exact ⟨rfl, rfl⟩
      | cons d after =>
        have blank := apart d rfl
        simp [notBlank, blank]
    rw [wordsNext here, List.takeWhile_append_of_pos inside, List.dropWhile_append_of_pos inside,
      stops.1, stops.2, List.append_nil, ih]

end Layout

section Bytes

def utf8 (text : List Char) : List UInt8 := (String.ofList text).toUTF8.data.toList

theorem utf8Some {bytes : List UInt8} :
    utf8? bytes = some text ↔ (⟨bytes.toArray⟩ : ByteArray) = text.utf8Encode := by
  unfold utf8? String.fromUTF8?
  constructor
  · intro read
    split at read
    · rename_i valid
      simp only [Option.map_some, Option.some.injEq] at read
      rw [← read, ← String.toByteArray_ofList, String.ofList_toList]
      rfl
    · cases read
  · intro same
    have valid : (⟨bytes.toArray⟩ : ByteArray).IsValidUTF8 := ⟨text, same⟩
    rw [dif_pos valid]
    have whole : String.fromUTF8 ⟨bytes.toArray⟩ valid = String.ofList text :=
      String.toByteArray_inj.mp (same.trans String.toByteArray_ofList.symm)
    rw [whole, Option.map_some, String.toList_ofList]

theorem utf8Returned {bytes : List UInt8} (read : utf8? bytes = some text) :
    utf8? (bytes ++ [13]) = some (text ++ ['\r']) := by
  rw [utf8Some] at read ⊢
  rw [List.utf8Encode_append, ← read]
  rfl

theorem utf8Text (text : List Char) : utf8? (utf8 text) = some text :=
  utf8Some.mpr String.toByteArray_ofList

theorem utf8Same {line : List UInt8} (read : utf8? line = some text) : line = utf8 text := by
  have same := (utf8Some.mp read).trans String.toByteArray_ofList.symm
  exact congrArg (fun b : ByteArray => b.data.toList) same

theorem utf8None {line : List UInt8} (foreign : ∀ text, line ≠ utf8 text) : utf8? line = none := by
  cases found : utf8? line with
  | none => rfl
  | some text => exact absurd (utf8Same found) (foreign text)

end Bytes

end CommunityGraph.Text
