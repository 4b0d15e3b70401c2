/-! What a run is going to do: tasks with a volume, made of smaller tasks, some of them repeated. -/
namespace CommunityGraph

structure Task where
  description : String
  volume : Nat
  maxIterations : Option Nat
  subTasks : List Task
  deriving Repr, BEq, Inhabited

namespace Task

def leaf (description : String) (volume : Nat) : Task := ⟨description, volume, none, []⟩

def group (description : String) (subTasks : List Task) : Task := ⟨description, 0, none, subTasks⟩

def iterative (description : String) (maxIterations : Nat) (subTasks : List Task) : Task :=
  ⟨description, 0, some maxIterations, subTasks⟩

mutual

def totalVolume : Task → UInt64
  | ⟨_, volume, maxIterations, subTasks⟩ =>
      .ofNat volume + totalVolumes subTasks * .ofNat (maxIterations.getD 1)

def totalVolumes : List Task → UInt64
  | [] => 0
  | task :: tasks => totalVolume task + totalVolumes tasks

end

def subTask? (t : Task) (description : String) : Option Task :=
  t.subTasks.find? fun task => task.description = description

end Task
end CommunityGraph
