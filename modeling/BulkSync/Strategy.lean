import BulkSync.Partition

namespace BulkSync

/-- How the nodes of a superstep are spread over tasks: one range halved down to a threshold, or
a fixed list of partitions. -/
inductive Strategy where
  | workStealing (threshold : Nat)
  | partitioned (partitions : List Partition)

namespace Strategy

def name : Strategy → String
  | .workStealing _ => "work-stealing"
  | .partitioned _ => "partitioned"

/-- The id after the last partition of a list. -/
def covered (partitions : List Partition) : Except Fault Nat :=
  match partitions.getLast? with
  | none => .ok 0
  | some p => p.stop

/-- The tasks of a superstep over `nodes` nodes, from left to right. A fixed list has to end
where the nodes end. -/
def tasks (strategy : Strategy) (nodes : Nat) : Except Fault (List Partition) :=
  match strategy with
  | .workStealing threshold =>
    if nodes = 0 then .ok [] else (Partition.whole nodes).leaves threshold
  | .partitioned partitions => do
    let stop ← covered partitions
    if stop = nodes then return partitions else throw (.uncovered stop nodes)

/-- Runs a task on every partition; the first one that faults decides. -/
def run {α : Type} (strategy : Strategy) (nodes : Nat) (task : Partition → Except Fault α) :
    Except Fault (List α) := do
  let partitions ← strategy.tasks nodes
  partitions.mapM task

end Strategy

end BulkSync
