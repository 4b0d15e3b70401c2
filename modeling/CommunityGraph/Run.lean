import CommunityGraph.Error
import CommunityGraph.Journal

/-! Runs that can be stopped from outside. A run reads a termination flag whenever it checks, and
adds to its journal; each reading of the flag is counted. -/
namespace CommunityGraph

/-- The answers of a termination flag: whether the run may go on, given how often it was asked
before and what the journal holds. -/
structure Termination where
  running : Nat → Journal → Bool

namespace Termination

def always : Termination := ⟨fun _ _ => true⟩

def terminated : Termination := ⟨fun _ _ => false⟩

def after (n : Nat) : Termination := ⟨fun asked _ => asked < n⟩

def atPhase (phase : String) (k : Nat) : Termination := ⟨fun _ j => j.begun phase < k⟩

end Termination

def Watched (α : Type) : Type := Termination → Journal → α × Journal

namespace Watched
variable {α β : Type}

def pure (a : α) : Watched α := fun _ j => (a, j)

def bind (m : Watched α) (f : α → Watched β) : Watched β := fun t j =>
  match m t j with
  | (a, j) => f a t j

instance : Monad Watched where
  pure := pure
  bind := bind

def check : Watched Bool := fun t j => (t.running j.checks j, j.checked)

def note (e : Entry) : Watched Unit := fun _ j => ((), j.note e)

end Watched

def Run (α : Type) : Type := Watched (Except EngineError α)

namespace Run
variable {α β : Type}

def pure (a : α) : Run α := fun _ j => (.ok a, j)

def fail (e : EngineError) : Run α := fun _ j => (.error e, j)

def bind (m : Run α) (f : α → Run β) : Run β := fun t j =>
  match m t j with
  | (.error e, j) => (.error e, j)
  | (.ok a, j) => f a t j

instance : Monad Run where
  pure := pure
  bind := bind

def ofExcept : Except EngineError α → Run α
  | .error e => fail e
  | .ok a => pure a

def note (e : Entry) : Run Unit := fun _ j => (.ok (), j.note e)

def log (level : LogLevel) (text : String) (fields : List (String × String)) : Run Unit :=
  note (.log ⟨level, text, fields⟩)

def assertRunning : Run Unit := fun t j =>
  (if t.running j.checks j then .ok () else .error .terminated, j.checked)

def phase (name : String) (volume : Nat) (body : Run α) : Run α := fun t j =>
  match body t (j.note (.begin name volume)) with
  | (.error e, j) => (.error e, j.note (.failure name))
  | (.ok a, j) => (.ok a, j.note (.finish name))

def attempt (m : Run α) : Watched (Except EngineError α) := m

def ofWatched (m : Watched α) : Run α := fun t j =>
  match m t j with
  | (a, j) => (.ok a, j)

end Run
end CommunityGraph
