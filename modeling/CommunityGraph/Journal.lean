/-! What a run leaves behind besides its answer: the phases it went through, the progress made in
them, its state changes, and the lines it logged, all in one order. -/
namespace CommunityGraph

inductive LogLevel where
  | debug
  | info
  | warn
  deriving DecidableEq, Repr

structure LogLine where
  level : LogLevel
  text : String
  fields : List (String × String)
  deriving DecidableEq, Repr

inductive SearchState where
  | initialized
  | localMoving (level : Nat)
  | converged
  | maxIterationsReached
  deriving DecidableEq, Repr

def SearchState.text : SearchState → String
  | initialized => "Initialized"
  | localMoving level => "LocalMoving(" ++ toString level ++ ")"
  | converged => "Converged"
  | maxIterationsReached => "MaxIterationsReached"

inductive Entry where
  | begin (phase : String) (volume : Nat)
  | progress (delta : Nat)
  | message (text : String)
  | finish (phase : String)
  | failure (phase : String)
  | transition (before after : SearchState)
  | log (line : LogLine)
  deriving DecidableEq, Repr

structure Journal where
  checks : Nat
  entries : Array Entry
  deriving Repr

namespace Journal

def empty : Journal := ⟨0, #[]⟩

def note (j : Journal) (e : Entry) : Journal := { j with entries := j.entries.push e }

def checked (j : Journal) : Journal := { j with checks := j.checks + 1 }

def begun (j : Journal) (phase : String) : Nat :=
  j.entries.countP fun e => match e with
    | .begin name _ => name = phase
    | _ => false

def state (j : Journal) : SearchState :=
  j.entries.foldl (fun s e => match e with
    | .transition _ after => after
    | _ => s) .initialized

def mergeProgress (sum : Option Nat) : List Entry → List Entry
  | [] => (sum.map Entry.progress).toList
  | .progress delta :: entries => mergeProgress (some (sum.getD 0 + delta)) entries
  | .log _ :: entries => mergeProgress sum entries
  | .transition .. :: entries => mergeProgress sum entries
  | entry :: entries => (sum.map Entry.progress).toList ++ entry :: mergeProgress none entries

def phases (j : Journal) : List Entry := mergeProgress none j.entries.toList

end Journal

end CommunityGraph
