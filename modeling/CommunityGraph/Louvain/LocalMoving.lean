import CommunityGraph.Louvain.Config

/-! Moving single nodes. The nodes of one color decide against the same communities, and then all
move; this is repeated over the colors, and over sweeps, until no node moves. -/
namespace CommunityGraph.LocalMoving
variable {α : Type} [Weight α]

structure Assignment (α : Type) where
  communities : Array Nat
  totals : Array α

def Assignment.singletons (degrees : Array α) : Assignment α := ⟨Array.range degrees.size, degrees⟩

def addWeight (community : Nat) (weight : α) : List (Nat × α) → List (Nat × α)
  | [] => [(community, Weight.zero + weight)]
  | (other, sum) :: rest =>
      if other = community then (other, sum + weight) :: rest
      else (other, sum) :: addWeight community weight rest

def neighbourWeights (communities : Array Nat) (node : Nat) : List (Nat × α) → List (Nat × α) →
    List (Nat × α)
  | [], weights => weights
  | (target, weight) :: row, weights =>
      neighbourWeights communities node row
        (if target = node then weights
          else addWeight (communities.getD target 0) weight weights)

structure Candidate (α : Type) where
  community : Nat
  score : α

def better (best other : Candidate α) : Candidate α :=
  if Weight.lt best.score other.score ||
      (Weight.eq other.score best.score && other.community < best.community) then other
  else best

def score (inner total ratio : α) : α := inner - total * ratio

def candidates (totals : Array α) (ratio : α) (current : Nat) (weights : List (Nat × α)) :
    List (Candidate α) :=
  (weights.filter fun (community, _) => community ≠ current).map fun (community, inner) =>
    ⟨community, score inner (totals.getD community Weight.zero) ratio⟩

def stayScore (totals : Array α) (degree ratio : α) (current : Nat)
    (weights : List (Nat × α)) : α :=
  score ((weights.lookup current).getD Weight.zero)
    (totals.getD current Weight.zero - degree) ratio

def choose (stay : Candidate α) (others : List (Candidate α)) : Nat :=
  let best := others.foldl better stay
  if Weight.lt stay.score best.score then best.community else stay.community

def preferredCommunity (network : Network α) (a : Assignment α) (degrees : Array α) (total : α)
    (node : Nat) : Nat :=
  let current := a.communities.getD node 0
  if Weight.le total Weight.zero then current
  else
    let weights := neighbourWeights a.communities node (network.row node) []
    let degree := degrees.getD node Weight.zero
    let ratio := degree / total
    choose ⟨current, stayScore a.totals degree ratio current weights⟩
      (candidates a.totals ratio current weights)

def decide (network : Network α) (a : Assignment α) (degrees : Array α) (total : α) :
    List Nat → Array Nat → Array Nat
  | [], decisions => decisions
  | node :: nodes, decisions =>
      decide network a degrees total nodes
        (decisions.setIfInBounds node (preferredCommunity network a degrees total node))

def move (degrees : Array α) (decisions : Array Nat) (node : Nat) (a : Assignment α) :
    Bool × Assignment α :=
  match a with
  | ⟨communities, totals⟩ =>
      let goal := decisions.getD node 0
      let current := communities.getD node 0
      if goal = current then (false, ⟨communities, totals⟩)
      else
        let degree := degrees.getD node Weight.zero
        let totals := totals.modify current fun total => total - degree
        let totals := totals.modify goal fun total => total + degree
        (true, ⟨communities.setIfInBounds node goal, totals⟩)

def moveAll (degrees : Array α) (decisions : Array Nat) :
    List Nat → Nat → Assignment α → Nat × Assignment α
  | [], moves, a => (moves, a)
  | node :: nodes, moves, a =>
      match move degrees decisions node a with
      | (moved, a) => moveAll degrees decisions nodes (if moved then moves + 1 else moves) a

structure Setting (α : Type) where
  network : Network α
  degrees : Array α
  total : α
  concurrency : Nat
  minBatchSize : Nat

def decideBatch (s : Setting α) (members : Array Nat) (a : Assignment α) :
    BatchQueue.Action (Array Nat) := fun batch decisions _ j =>
  let nodes := (members.extract batch.start batch.stop).toList
  ((.ok (), decide s.network a s.degrees s.total nodes decisions), j.note (.progress batch.size))

def passClass (s : Setting α) (members : List Nat) (moves : Nat) (a : Assignment α)
    (decisions : Array Nat) : Run (Nat × Assignment α × Array Nat) := do
  let queue := BatchQueue.consecutiveWith members.length s.minBatchSize s.concurrency
  let decisions ← queue.consumeAll s.concurrency (decideBatch s members.toArray a) decisions
  match moveAll s.degrees decisions members moves a with
  | (moves, a) => pure (moves, a, decisions)

def sweep (s : Setting α) : List (List Nat) → Nat → Assignment α → Array Nat →
    Run (Nat × Assignment α × Array Nat)
  | [], moves, a, decisions => pure (moves, a, decisions)
  | members :: classes, moves, a, decisions => do
      let (moves, a, decisions) ← passClass s members moves a decisions
      sweep s classes moves a decisions

def sweeps (s : Setting α) (classes : List (List Nat)) :
    Nat → Nat → Assignment α → Array Nat → Run (Assignment α)
  | 0, _, a, _ => pure a
  | left + 1, number, a, decisions => do
      let (moves, a, decisions) ← sweep s classes 0 a decisions
      Run.log .debug "local moving sweep"
        [("sweep", toString number), ("moves", toString moves),
          ("colors", toString classes.length)]
      if moves = 0 then pure a else sweeps s classes left (number + 1) a decisions

def run (s : Setting α) (coloring : Coloring) (maxSweeps : Nat) : Run (List Nat) := do
  let classes := colorClasses (coloring.colors s.network)
  let a ← sweeps s classes maxSweeps 0 (.singletons s.degrees)
    (Array.replicate s.network.nodeCount 0)
  pure a.communities.toList

end CommunityGraph.LocalMoving
