import BulkSync.Computation

namespace BulkSync

/-- The distance of nodes that have not been reached. -/
def unreached : Float := 1.0 / 0.0

/-- The smaller of two doubles; a number is preferred to not-a-number. -/
def lesser (a b : Float) : Float :=
  if b < a || a.isNaN then b else a

/-- The number of edges from a source to every node. A node that comes closer tells its
neighbors, and the source tells them once; all halt until they hear more. -/
def shortestPaths (source : Nat) : Computation Float Unit where
  fields := [⟨"distance", .single .double⟩]
  aggregators := []
  init node _ :=
    OwnProgram.writeNumber .double "distance" (if node = source then 0.0 else unreached)
  compute place messages := do
    let current ← NodeProgram.readNumber .double "distance"
    let shortest : Float := messages.waiting.foldl lesser current
    if shortest < current then NodeProgram.writeNumber .double "distance" shortest
    if shortest < current || (place.superstep == 0 && current == 0.0) then
      NodeProgram.sendNeighbors (shortest + 1.0)
    NodeProgram.vote
  master _ _ := .done (false, ())

end BulkSync
