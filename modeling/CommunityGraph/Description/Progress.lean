import CommunityGraph.Datum
import CommunityGraph.Progress.Tracker

/-! Tasks, phases and states as data. -/
namespace CommunityGraph

namespace Task

mutual

def datum : Task → Datum
  | ⟨description, volume, maxIterations, subTasks⟩ =>
      .fields [("name", .text description), ("iterations", .option .nat maxIterations),
        ("total", .nat (totalVolume ⟨description, volume, maxIterations, subTasks⟩).toNat),
        ("tasks", .list (data subTasks))]

def data : List Task → List Datum
  | [] => []
  | task :: tasks => datum task :: data tasks

end

end Task

def Entry.datum : Entry → Datum
  | begin phase volume => .list [.text "begin", .text phase, .nat volume]
  | progress delta => .list [.text "progress", .nat delta]
  | message text => .list [.text "message", .text text]
  | finish phase => .list [.text "end", .text phase]
  | failure phase => .list [.text "fail", .text phase]
  | transition before after => .list [.text "state", .text before.text, .text after.text]
  | log line => .list [.text "log", .text line.render]

def SearchState.datum : SearchState → Datum
  | initialized => .text "Initialized"
  | localMoving level => .fields [("LocalMoving", .nat level)]
  | converged => .text "Converged"
  | maxIterationsReached => .text "MaxIterationsReached"

end CommunityGraph
