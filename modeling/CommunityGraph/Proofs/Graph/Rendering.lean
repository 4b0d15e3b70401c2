import Mathlib
import CommunityGraph.Proofs.Builder.Calls
import CommunityGraph.Proofs.Decimal.Literal
import CommunityGraph.Proofs.Graph.Lines

/-! Lines as they are written. However its words are spaced, a line is read as the record that they write;
a number that the type of its place does not have is refused. -/
namespace CommunityGraph

namespace Literal

theorem digitWhole {c : Char} (digit : c.isDigit = true) : Text.isBlank c = false := by
  have range : 48 ≤ c.toNat ∧ c.toNat ≤ 57 := by
    simpa [Char.isDigit, UInt32.le_iff_toNat_le] using digit
  simp only [Text.isBlank, Bool.or_eq_false_iff, Bool.and_eq_false_iff, decide_eq_false_iff_not]
  omega

theorem digitsWhole (n : Nat) : Text.Whole (Nat.toDigits 10 n) :=
  ⟨Nat.toDigits_ne_nil, fun _ member => digitWhole (digitsDigit member)⟩

theorem printedWhole (z : Int) : Text.Whole (printed z) := by
  cases z with
  | ofNat n =>
    rw [Int.ofNat_eq_natCast, printedNatural]
    exact digitsWhole n
  | negSucc n =>
    rw [printedNegative]
    refine ⟨List.cons_ne_nil _ _, fun c member => ?_⟩
    rcases List.mem_cons.mp member with rfl | digit
    · rfl
    · exact (digitsWhole (n + 1)).2 c digit

end Literal

namespace GraphRecord
open Literal (printed)

def Comment (tag : List Char) : Prop := tag.head? = some '#' ∨ tag.head? = some '%'

def IsCount (z : Int) : Prop := 0 ≤ z ∧ z < UInt64.size

def IsId (z : Int) : Prop := Int64.minValue.toInt ≤ z ∧ z ≤ Int64.maxValue.toInt

def refused {α : Type} (number : Nat) (what : String) (z : Int) : Except EngineError α :=
  .error (.parse number ("invalid " ++ what ++ " '" ++ toString z ++ "'"))

inductive Means (number : Nat) : List (List Char) → Except EngineError GraphRecord → Prop where
  | blank : Means number [] (.ok .skip)
  | comment {tag : List Char} (mark : Comment tag) (further : List (List Char)) :
      Means number (tag :: further) (.ok .skip)
  | header (nodes edges : UInt64) (further : List (List Char)) :
      Means number (['t'] :: printed nodes.toNat :: printed edges.toNat :: further)
        (.ok (.header nodes.toNat edges.toNat))
  | vertex (id : Int64) (further : List (List Char)) :
      Means number (['v'] :: printed id.toInt :: further) (.ok (.vertex id.toInt))
  | edge (source target : Int64) :
      Means number [['e'], printed source.toInt, printed target.toInt]
        (.ok (.edge source.toInt target.toInt none))
  | nodesBeyond {nodes : Int} (beyond : ¬IsCount nodes) (further : List (List Char)) :
      Means number (['t'] :: printed nodes :: further) (refused number "node count" nodes)
  | edgesBeyond (nodes : UInt64) {edges : Int} (beyond : ¬IsCount edges)
      (further : List (List Char)) :
      Means number (['t'] :: printed nodes.toNat :: printed edges :: further)
        (refused number "edge count" edges)
  | vertexBeyond {id : Int} (beyond : ¬IsId id) (further : List (List Char)) :
      Means number (['v'] :: printed id :: further) (refused number "vertex id" id)
  | sourceBeyond {source : Int} (beyond : ¬IsId source) (further : List (List Char)) :
      Means number (['e'] :: printed source :: further) (refused number "source id" source)
  | targetBeyond (source : Int64) {target : Int} (beyond : ¬IsId target)
      (further : List (List Char)) :
      Means number (['e'] :: printed source.toInt :: printed target :: further)
        (refused number "target id" target)
  | unknown {tag : List Char} (unmarked : ¬Comment tag) (noHeader : tag ≠ ['t'])
      (noVertex : tag ≠ ['v']) (noEdge : tag ≠ ['e']) (further : List (List Char)) :
      Means number (tag :: further)
        (.error (.parse number ("unknown line type '" ++ String.ofList tag ++ "'")))

section Words
variable {number : Nat} {words : List (List Char)}

theorem commentMark (tag : List Char) : isComment tag = true ↔ Comment tag := by
  cases tag with
  | nil => simp [isComment, Comment]
  | cons c rest =>
    simp only [isComment, Comment, List.head?_cons, Option.some.injEq]
    split <;> simp_all

theorem fieldTaken {α β : Type} {read : List Char → Option α} {word : List Char} {value : α}
    (taken : read word = some value) (what : String) (f : α × List (List Char) → Except EngineError β) :
    (field read number what (word :: words) >>= f) = f (value, words) := by
  rw [field, taken]
  rfl

theorem fieldRefused {α β : Type} {read : List Char → Option α} {z : Int}
    (none : read (printed z) = none) (what : String)
    (f : α × List (List Char) → Except EngineError β) :
    (field read number what (printed z :: words) >>= f) = refused number what z := by
  rw [field, none, printed, String.ofList_toList]
  rfl

variable {α : Type}

theorem countTaken (n : UInt64) (what : String) (f : Nat × List (List Char) → Except EngineError α) :
    (field Literal.word? number what (printed n.toNat :: words) >>= f) = f (n.toNat, words) :=
  fieldTaken (Literal.wordReads n) what f

theorem idTaken (id : Int64) (what : String) (f : Int × List (List Char) → Except EngineError α) :
    (field Literal.signed? number what (printed id.toInt :: words) >>= f) = f (id.toInt, words) :=
  fieldTaken (Literal.signedReads id) what f

theorem countRefused {z : Int} (beyond : ¬IsCount z) (what : String)
    (f : Nat × List (List Char) → Except EngineError α) :
    (field Literal.word? number what (printed z :: words) >>= f) = refused number what z :=
  fieldRefused ((Literal.wordPrinted z).trans (if_neg beyond)) what f

theorem idRefused {z : Int} (beyond : ¬IsId z) (what : String)
    (f : Int × List (List Char) → Except EngineError α) :
    (field Literal.signed? number what (printed z :: words) >>= f) = refused number what z :=
  fieldRefused ((Literal.signedPrinted z).trans (if_neg beyond)) what f

theorem ofWordsMeans {answer : Except EngineError GraphRecord} (tells : Means number words answer) :
    ofWords number words = answer := by
  cases tells with
  | blank => rfl
  | comment mark further =>
    rw [ofWords, if_pos ((commentMark _).mpr mark)]
  | header nodes edges further => simp [ofWords, isComment, countTaken]
  | vertex id further => simp [ofWords, isComment, idTaken]
  | edge source target => simp [ofWords, isComment, idTaken]
  | nodesBeyond beyond further => simp [ofWords, isComment, countRefused beyond]
  | edgesBeyond nodes beyond further => simp [ofWords, isComment, countTaken, countRefused beyond]
  | vertexBeyond beyond further => simp [ofWords, isComment, idRefused beyond]
  | sourceBeyond beyond further => simp [ofWords, isComment, idRefused beyond]
  | targetBeyond source beyond further => simp [ofWords, isComment, idTaken, idRefused beyond]
  | unknown unmarked noHeader noVertex noEdge further =>
    rw [ofWords, if_neg fun mark => unmarked ((commentMark _).mp mark), if_neg noHeader, if_neg noVertex,
      if_neg noEdge]

theorem ofWordsSkip (skips : ofWords number words = .ok .skip) :
    words = [] ∨ ∃ tag further, words = tag :: further ∧ Comment tag := by
  cases words with
  | nil => exact .inl rfl
  | cons tag rest =>
    refine .inr ⟨tag, rest, rfl, (commentMark tag).mp ?_⟩
    simp only [ofWords] at skips
    split_ifs at skips with marked
    · exact marked
    · obtain ⟨nodes, -, skips⟩ := bindOk skips
      obtain ⟨edges, -, skips⟩ := bindOk skips
      cases skips
    · obtain ⟨id, -, skips⟩ := bindOk skips
      cases skips
    · obtain ⟨source, -, skips⟩ := bindOk skips
      obtain ⟨target, -, skips⟩ := bindOk skips
      split at skips
      · cases skips
      · obtain ⟨weight, -, skips⟩ := bindOk skips
        cases skips

end Words

section Lines
variable {number : Nat} {words : List (List Char)} {text : List Char}

theorem ofLineSpaced (number : Nat) (spaced : Text.Spaced words text) :
    ofLine number (Text.utf8 text) = ofWords number words := by
  rw [ofLine, Text.utf8Text, ← Text.wordsSpaced.mpr spaced]

theorem ofLineSkip (number : Nat) (text : List Char) :
    ofLine number (Text.utf8 text) = .ok .skip ↔
      Text.Spaced [] text ∨ ∃ tag further, Text.Spaced (tag :: further) text ∧ Comment tag := by
  constructor
  · intro skips
    have spaced := Text.spacedWords text
    rw [ofLineSpaced number spaced] at skips
    rcases ofWordsSkip skips with none | ⟨tag, further, some, mark⟩
    · exact .inl (none ▸ spaced)
    · exact .inr ⟨tag, further, some ▸ spaced, mark⟩
  · rintro (spaced | ⟨tag, further, spaced, mark⟩)
    · exact (ofLineSpaced number spaced).trans (ofWordsMeans .blank)
    · exact (ofLineSpaced number spaced).trans (ofWordsMeans (.comment mark further))

theorem renderingsRead (number : Nat) :
    (∀ z, Text.Whole (printed z)) ∧
      (∀ words text answer, Means number words answer → Text.Spaced words text →
        ofLine number (Text.utf8 text) = answer) ∧
      (∀ text, ofLine number (Text.utf8 text) = .ok .skip ↔
        Text.Spaced [] text ∨ ∃ tag further, Text.Spaced (tag :: further) text ∧ Comment tag) ∧
      ∀ line, (∀ text, line ≠ Text.utf8 text) →
        ofLine number line = .error (.parse number "not valid UTF-8") := by
  refine ⟨Literal.printedWhole, fun words text answer tells spaced => ?_, ofLineSkip number,
    fun line foreign => ?_⟩
  · exact (ofLineSpaced number spaced).trans (ofWordsMeans tells)
  · rw [ofLine, Text.utf8None foreign]

def sampleText : List Char :=
  [' '] ++ ['t'] ++ ([' ', '\t'] ++ printed 2 ++ (['\t'] ++ printed 18446744073709551615 ++
    ([' '] ++ ['x'] ++ ['\r'])))

theorem sampleRendering :
    Means 4 [['t'], printed 2, printed 18446744073709551615, ['x']]
        (.ok (.header 2 18446744073709551615)) ∧
      Text.Spaced [['t'], printed 2, printed 18446744073709551615, ['x']] sampleText ∧
      ofLine 4 (Text.utf8 sampleText) = .ok (.header 2 18446744073709551615) ∧
      (∀ text, [255] ≠ Text.utf8 text) ∧
      ofLine 4 [255] = .error (.parse 4 "not valid UTF-8") := by
  have tells : Means 4 [['t'], printed 2, printed 18446744073709551615, ['x']]
      (.ok (.header 2 18446744073709551615)) := .header 2 18446744073709551615 [['x']]
  have spaced : Text.Spaced [['t'], printed 2, printed 18446744073709551615, ['x']] sampleText := by
    have whole : Text.Whole ['t'] ∧ Text.Whole ['x'] := by simp [Text.Whole, Text.isBlank]
    refine .word (by simp [Text.isBlank]) whole.1 (by simp [Text.isBlank]) ?_
    refine .word (by simp [Text.isBlank]) (Literal.printedWhole _) (by simp [Text.isBlank]) ?_
    refine .word (by simp [Text.isBlank]) (Literal.printedWhole _) (by simp [Text.isBlank]) ?_
    exact .word (by simp [Text.isBlank]) whole.2 (by simp [Text.isBlank]) (.blank (by simp [Text.isBlank]))
  have foreign : ∀ text, [255] ≠ Text.utf8 text := fun text same => by
    have none : Text.utf8? [255] = none := by decide +kernel
    rw [same, Text.utf8Text] at none
    cases none
  obtain ⟨-, reads, -, refuses⟩ := renderingsRead 4
  exact ⟨tells, spaced, reads _ _ _ tells spaced, foreign, refuses _ foreign⟩

end Lines
end GraphRecord
end CommunityGraph
