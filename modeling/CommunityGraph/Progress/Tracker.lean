import CommunityGraph.Journal
import CommunityGraph.Progress.Task
import CommunityGraph.Text.Quoted

/-! Following a run by its journal: which phases are open, how much progress was made, and the
lines that are logged about it. -/
namespace CommunityGraph

def Entry.line? : Entry → Option LogLine
  | transition before after =>
      some ⟨.debug, "louvain state", [("from", before.text), ("to", after.text)]⟩
  | log line => some line
  | _ => none

def Journal.lines (j : Journal) : List LogLine := j.entries.toList.filterMap Entry.line?

structure Tracker where
  root : Task
  phases : List String
  progress : Nat

namespace Tracker

def make (root : Task) : Tracker := ⟨root, [], 0⟩

def depth (t : Tracker) : Nat := t.phases.length

def line (t : Tracker) (level : LogLevel) (parts : List String) : LogLine :=
  ⟨level, " :: ".intercalate (t.root.description :: parts), []⟩

def close (t : Tracker) (phase : String) (closing : LogLine) : Tracker × List LogLine :=
  match t.phases with
  | [] =>
      (t, [⟨.warn, "progress phase ended without being started", [("task", Text.quoted phase)]⟩])
  | innermost :: outer =>
      let warning : List LogLine :=
        if innermost = phase then []
        else [⟨.warn, "progress phases ended out of order",
          [("expected", Text.quoted innermost), ("actual", Text.quoted phase)]⟩]
      ({ t with phases := outer }, warning ++ [closing])

def step (t : Tracker) : Entry → Tracker × List LogLine
  | .begin phase _ => ({ t with phases := phase :: t.phases }, [t.line .info [phase, "Start"]])
  | .progress delta => ({ t with progress := (t.progress + delta) % UInt64.size }, [])
  | .message text => (t, [t.line .info [text]])
  | .finish phase => t.close phase (t.line .info [phase, "Finished in"])
  | .failure phase => t.close phase (t.line .warn [phase, "Failed after"])
  | entry => (t, entry.line?.toList)

def lines (t : Tracker) : List Entry → List LogLine
  | [] => []
  | entry :: entries =>
      match t.step entry with
      | (t, logged) => logged ++ lines t entries

end Tracker

def upTo? (mark : List Char) : List Char → Option (List Char)
  | [] => none
  | c :: cs =>
      if (mark ++ [' ']).isPrefixOf (c :: cs) then some mark
      else (upTo? mark cs).map fun text => c :: text

def withoutElapsed (text : String) : String :=
  let cut (mark : String) (cs : List Char) : List Char := (upTo? mark.toList cs).getD cs
  String.ofList (cut "Failed after" (cut "Finished in" text.toList))

def LogLine.render (line : LogLine) : String :=
  let fields := (line.fields.map fun (name, value) => name ++ "=" ++ value).mergeSort
    fun a b => !(b < a)
  fields.foldl (fun text field => text ++ " " ++ field) (withoutElapsed line.text)

end CommunityGraph
