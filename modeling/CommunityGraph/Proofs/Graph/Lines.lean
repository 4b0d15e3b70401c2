import Mathlib
import CommunityGraph.Graph.Loader
import CommunityGraph.Proofs.Text.Words

/-! Lines of a graph file. A line tells the same under any number, and with a carriage return at its end;
blank lines, comments and vertices do not tell anything that a graph with a header is made of. -/
namespace CommunityGraph

namespace GraphRecord

theorem optionBind {ε α β : Type} {x y : Except ε α} {f g : α → Except ε β}
    (first : x.toOption = y.toOption) (rest : ∀ a, (f a).toOption = (g a).toOption) :
    (x >>= f).toOption = (y >>= g).toOption := by
  cases x <;> cases y
  · rfl
  · cases first
  · cases first
  · cases first
    exact rest _

theorem fieldNumber {α : Type} (read : List Char → Option α) (what : String) (n m : Nat)
    (words : List (List Char)) :
    (field read n what words).toOption = (field read m what words).toOption := by
  cases words with
  | nil => rfl
  | cons word rest =>
    simp only [field]
    cases read word <;> rfl

theorem ofWordsNumber (n m : Nat) (words : List (List Char)) :
    (ofWords n words).toOption = (ofWords m words).toOption := by
  cases words with
  | nil => rfl
  | cons tag rest =>
    simp only [ofWords]
    split_ifs
    · rfl
    · refine optionBind (fieldNumber _ _ _ _ _) fun nodes => ?_
      exact optionBind (fieldNumber _ _ _ _ _) fun _ => rfl
    · exact optionBind (fieldNumber _ _ _ _ _) fun _ => rfl
    · refine optionBind (fieldNumber _ _ _ _ _) fun source => ?_
      refine optionBind (fieldNumber _ _ _ _ _) fun target => ?_
      obtain ⟨id, rest⟩ := target
      cases rest with
      | nil => rfl
      | cons word rest => exact optionBind (fieldNumber _ _ _ _ _) fun _ => rfl
    · rfl

def Blames {α : Type} (line : Nat) (x : Except EngineError α) : Prop :=
  ∀ e, x = .error e → ∃ message, e = .parse line message

section Blames
variable {α β : Type} {line : Nat}

theorem Blames.ok (a : α) : Blames line (.ok a) := fun _ failed => by cases failed

theorem Blames.parse (message : String) : Blames line (.error (.parse line message) : Except _ α) :=
  fun _ failed => ⟨message, (Except.error.inj failed).symm⟩

theorem Blames.bind {x : Except EngineError α} {f : α → Except EngineError β}
    (first : Blames line x) (rest : ∀ a, Blames line (f a)) : Blames line (x >>= f) := by
  cases x with
  | error e =>
    intro e' failed
    exact first e' (congrArg Except.error (Except.error.inj failed))
  | ok a => exact rest a

end Blames

def read? (line : List UInt8) : Option GraphRecord := (ofLine 0 line).toOption

theorem readNumber (number : Nat) (line : List UInt8) :
    (ofLine number line).toOption = read? line := by
  unfold read? ofLine
  cases Text.utf8? line with
  | none => rfl
  | some text => exact ofWordsNumber _ _ _

theorem readAny {line : List UInt8} {record : GraphRecord} (read : read? line = some record)
    (number : Nat) : ofLine number line = .ok record := by
  have same := readNumber number line
  rw [read] at same
  cases found : ofLine number line with
  | error e =>
    rw [found] at same
    cases same
  | ok other =>
    rw [found] at same
    exact congrArg Except.ok (Option.some.inj same)

theorem readReturned {line : List UInt8} {record : GraphRecord} (read : read? line = some record) :
    read? (line ++ [13]) = some record := by
  unfold read? ofLine at read ⊢
  cases found : Text.utf8? line with
  | none =>
    rw [found] at read
    cases read
  | some text =>
    rw [found] at read
    rw [Text.utf8Returned found]
    dsimp only
    rw [Text.wordsReturned]
    exact read

def edge? : GraphRecord → Option (Int × Int × Option Float)
  | edge source target weight => some (source, target, weight)
  | _ => none

inductive Idle : List UInt8 → Prop where
  | blank {line : List UInt8} {text : List Char} (read : Text.utf8? line = some text)
      (blank : ∀ c ∈ text, Text.isBlank c = true) : Idle line
  | comment {line : List UInt8} {text word : List Char} {rest : List (List Char)}
      (read : Text.utf8? line = some text) (words : Text.words text = word :: rest)
      (comment : isComment word = true) : Idle line
  | vertex {line : List UInt8} {id : Int} (read : read? line = some (.vertex id)) : Idle line

theorem Idle.told {line : List UInt8} (idle : Idle line) :
    ∃ record, read? line = some record ∧ record.counts? = none ∧ record.edge? = none := by
  cases idle with
  | blank read blank =>
    refine ⟨.skip, ?_, rfl, rfl⟩
    simp only [read?, ofLine, read, Text.wordsBlank blank]
    rfl
  | comment read words comment =>
    refine ⟨.skip, ?_, rfl, rfl⟩
    simp only [read?, ofLine, read, words, ofWords, comment, if_true]
    rfl
  | vertex read => exact ⟨_, read, rfl, rfl⟩

end GraphRecord

namespace GraphFile
open GraphRecord

def Parses (lines : List (List UInt8)) (records : List GraphRecord) : Prop :=
  List.Forall₂ (fun line record => read? line = some record) lines records

def recordsOf (content : List UInt8) : List GraphRecord :=
  (Text.pieces 10 content).filterMap read?

theorem parsesAll {lines : List (List UInt8)} (all : ∀ line ∈ lines, (read? line).isSome = true) :
    Parses lines (lines.filterMap read?) := by
  induction lines with
  | nil => exact .nil
  | cons line lines ih =>
    obtain ⟨record, read⟩ := Option.isSome_iff_exists.mp (all line (by simp))
    rw [List.filterMap_cons, read]
    exact .cons read (ih fun other member => all other (List.mem_cons_of_mem _ member))

def edgesOf (records : List GraphRecord) : List (Int × Int × Option Float) :=
  records.filterMap edge?

def afterLines (lines : List (List UInt8)) (j : Journal) : Journal :=
  lines.foldl (fun j _ => j.note (.progress 1)) j

theorem readLinesParsed {lines : List (List UInt8)} {records : List GraphRecord}
    (parses : Parses lines records) (number : Nat) (t : Termination) (j : Journal) :
    readLines number lines t j = (.ok records, afterLines lines j) := by
  induction parses generalizing number j with
  | nil => rfl
  | cons read _ ih =>
    simp only [readLines, readAny read number, ih]
    rfl

inductive Edit : List (List UInt8) → List (List UInt8) → Prop where
  | inserted {line : List UInt8} {lines : List (List UInt8)} (idle : Idle line) :
      Edit lines (line :: lines)
  | deleted {line : List UInt8} {lines : List (List UInt8)} (idle : Idle line) :
      Edit (line :: lines) lines
  | returned {line : List UInt8} {lines : List (List UInt8)} :
      Edit (line :: lines) ((line ++ [13]) :: lines)
  | further {line : List UInt8} {lines lines' : List (List UInt8)} (edit : Edit lines lines') :
      Edit (line :: lines) (line :: lines')

def Edited : List (List UInt8) → List (List UInt8) → Prop := Relation.ReflTransGen Edit

section Edits
variable {lines lines' : List (List UInt8)} {records : List GraphRecord}

theorem Edit.told (edit : Edit lines lines') (parses : Parses lines records) :
    ∃ records', Parses lines' records' ∧
      records'.findSome? counts? = records.findSome? counts? ∧ edgesOf records' = edgesOf records := by
  induction edit generalizing records with
  | inserted idle =>
    obtain ⟨record, read, uncounted, noEdge⟩ := idle.told
    exact ⟨record :: records, .cons read parses, by simp [uncounted], by simp [edgesOf, noEdge]⟩
  | deleted idle =>
    obtain ⟨record, read, uncounted, noEdge⟩ := idle.told
    cases parses with
    | @cons _ other _ records here rest =>
      obtain rfl : record = other := Option.some.inj (read.symm.trans here)
      exact ⟨records, rest, by simp [uncounted], by simp [edgesOf, noEdge]⟩
  | returned =>
    cases parses with
    | cons here rest => exact ⟨_, .cons (readReturned here) rest, rfl, rfl⟩
  | further _ ih =>
    cases parses with
    | @cons _ record _ _ here rest =>
      obtain ⟨records', parses', header, edges⟩ := ih rest
      refine ⟨record :: records', .cons here parses', ?_, ?_⟩
      · simp only [List.findSome?_cons, header]
      · simp only [edgesOf, List.filterMap_cons] at edges ⊢
        rw [edges]

theorem Edited.told (edited : Edited lines lines') (parses : Parses lines records) :
    ∃ records', Parses lines' records' ∧
      records'.findSome? counts? = records.findSome? counts? ∧ edgesOf records' = edgesOf records := by
  induction edited with
  | refl => exact ⟨records, parses, rfl, rfl⟩
  | tail _ edit ih =>
    obtain ⟨middle, parsed, header, edges⟩ := ih
    obtain ⟨records', parses', header', edges'⟩ := edit.told parsed
    exact ⟨records', parses', header'.trans header, edges'.trans edges⟩

end Edits
end GraphFile
end CommunityGraph
