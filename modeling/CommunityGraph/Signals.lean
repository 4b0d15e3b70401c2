import CommunityGraph.Run

/-! Termination signals. Copies of a signal share one flag: lowering any of them lowers all, and a
lowered flag is never raised again. -/
namespace CommunityGraph

structure Signals where
  lowered : Array Bool
  flagOf : Array Nat
  deriving DecidableEq, Repr

namespace Signals

def make (terminated : Bool) : Signals := ⟨#[terminated], #[0]⟩

def count (s : Signals) : Nat := s.flagOf.size

def create (s : Signals) : Nat × Signals :=
  (s.count, ⟨s.lowered.push false, s.flagOf.push s.lowered.size⟩)

def copy? (s : Signals) (signal : Nat) : Option (Nat × Signals) :=
  s.flagOf[signal]?.map fun flag => (s.count, { s with flagOf := s.flagOf.push flag })

def isTerminated? (s : Signals) (signal : Nat) : Option Bool :=
  s.flagOf[signal]?.bind fun flag => s.lowered[flag]?

def terminate? (s : Signals) (signal : Nat) : Option Signals :=
  s.flagOf[signal]?.map fun flag => { s with lowered := s.lowered.setIfInBounds flag true }

def termination? (s : Signals) (signal : Nat) : Option Termination :=
  (s.isTerminated? signal).map fun terminated => if terminated then .terminated else .always

end Signals
end CommunityGraph
