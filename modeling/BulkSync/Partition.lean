import BulkSync.Graph

namespace BulkSync

/-- The nodes from `start` on, `length` of them. -/
structure Partition where
  start : Nat
  length : Nat
deriving DecidableEq, Repr

/-- How node ids are divided among workers. -/
inductive Partitioning where
  | range
  | degree
  | auto
deriving DecidableEq, Repr

namespace Partition

/-- The bytes a partition takes. -/
def size : Nat := 2 * countSize

/-- All nodes of a graph. -/
def whole (nodes : Nat) : Partition :=
  ⟨0, nodes⟩

def isEmpty (p : Partition) : Bool :=
  p.length == 0

/-- The first id after the partition. -/
def stop (p : Partition) : Except Fault Nat :=
  addCounts p.start p.length

/-- The ids of the partition in ascending order. -/
def ids (p : Partition) : List Nat :=
  List.range' p.start p.length

/-- The ids of the partition, if they all are node ids and a list has room for them. -/
def nodes (p : Partition) : Except Fault (List Nat) := do
  let _ ← p.stop
  makeRoom p.length countSize
  return p.ids

/-- Halves the partition; the left part gets the smaller half. -/
def split (p : Partition) : Except Fault (Partition × Partition) := do
  let half := p.length / 2
  let middle ← addCounts p.start half
  return (⟨p.start, half⟩, ⟨middle, p.length - half⟩)

/-- Halves the partition until no part has more than `threshold` nodes, or more than one. -/
def leaves (threshold : Nat) (p : Partition) : Except Fault (List Partition) :=
  if _small : p.length ≤ max threshold 1 then .ok [p]
  else do
    let half := p.length / 2
    let middle ← addCounts p.start half
    let left ← leaves threshold ⟨p.start, half⟩
    let right ← leaves threshold ⟨middle, p.length - half⟩
    return left ++ right
termination_by p.length
decreasing_by all_goals omega

end Partition

/-- Partitions of the given lengths, one after the other from `start` on. -/
def consecutive (laid : Array Partition) (start : Nat) :
    List Nat → Except Fault (List Partition)
  | [] => .ok laid.toList
  | length :: rest => do
    let next ← addCounts start length
    consecutive (laid.push ⟨start, length⟩) next rest

/-- `min workers nodes` partitions whose lengths differ by at most one, the longer ones first.
Nothing is divided where there are none. -/
def rangePartitions (workers nodes : Nat) : Except Fault (List Partition) :=
  let count := min (max workers 1) nodes
  if count = 0 then .ok []
  else do
    let (base, extra) ← divideCounts nodes count
    makeRoom count Partition.size
    consecutive #[] 0 ((List.range count).map fun i => base + if i < extra then 1 else 0)

/-- Cuts the nodes from `node` on, `remaining` of them, whenever the weight gathered since
`start` reaches the target. A node weighs its degree plus one. -/
def cutByWeight (g : Graph) (target : Nat) :
    (remaining node start weight : Nat) → Except Fault (List Partition)
  | 0, node, start, _ => .ok (if start < node then [⟨start, node - start⟩] else [])
  | remaining + 1, node, start, weight => do
    let degree ← g.degree node
    let own ← addCounts degree 1
    let weight ← addCounts weight own
    if target ≤ weight then
      let others ← cutByWeight g target remaining (node + 1) (node + 1) 0
      return ⟨start, node + 1 - start⟩ :: others
    else cutByWeight g target remaining (node + 1) start weight

/-- Partitions of roughly the same weight, one for each worker at most. Room is made for as many
as there are workers, whether there are nodes for them or not. -/
def degreePartitions (g : Graph) (workers : Nat) : Except Fault (List Partition) :=
  if g.nodes = 0 then .ok []
  else do
    let total ← addCounts g.relationships g.nodes
    let parts := max workers 1
    let target := (total + (parts - 1)) / parts
    makeRoom workers Partition.size
    cutByWeight g target g.nodes 0 0 0

end BulkSync
