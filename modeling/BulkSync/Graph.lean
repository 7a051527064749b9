import BulkSync.Fault

namespace BulkSync

/-- What a run asks of a graph. Node ids are the numbers below `nodes`. -/
structure Graph where
  nodes : Nat
  relationships : Nat
  degree : Nat → Except Fault Nat
  neighbors : Nat → Except Fault (List Nat)

/-- A directed graph: the targets of all edges grouped by source, and where each group starts. -/
structure Adjacency where
  offsets : Array Nat
  targets : Array Nat

/-- Adds one to a cell. -/
def bumpCell (cells : Array Nat) (i : Nat) : Except Fault (Array Nat) :=
  match cells[i]? with
  | none => .error .outOfBounds
  | some x => do
    let y ← addCounts x 1
    return cells.setIfInBounds i y

/-- The number of edges out of each source. -/
def sourceCounts (nodes : Nat) (edges : List (Nat × Nat)) : Except Fault (Array Nat) :=
  edges.foldlM (fun counts e => bumpCell counts e.1) (Array.replicate nodes 0)

/-- Running totals: `total`, then `total` plus the first count, and so on. -/
def runningTotals (totals : Array Nat) (total : Nat) : List Nat → Except Fault (Array Nat)
  | [] => .ok (totals.push total)
  | x :: xs => do
    let next ← addCounts total x
    runningTotals (totals.push total) next xs

/-- Puts each target into the next free place of its source. -/
def placeTargets : (cursor targets : Array Nat) → List (Nat × Nat) → Except Fault (Array Nat)
  | _, targets, [] => .ok targets
  | cursor, targets, (source, target) :: rest =>
    match cursor[source]? with
    | none => .error .outOfBounds
    | some i =>
      if i < targets.size then do
        let cursor ← bumpCell cursor source
        placeTargets cursor (targets.setIfInBounds i target) rest
      else .error .outOfBounds

namespace Adjacency

/-- The graph without nodes. -/
def empty : Adjacency := ⟨#[], #[]⟩

/-- Groups edges by source, keeping their order within a source. There has to be room for one
offset more than there are nodes, and the first edge that leaves the graph is refused. -/
def ofEdges (nodes : Nat) (edges : List (Nat × Nat)) : Except Fault Adjacency := do
  let slots ← addCounts nodes 1
  makeRoom slots countSize
  match edges.find? fun e => !(e.1 < nodes && e.2 < nodes) with
  | some e => throw (.edgeRange e.1 e.2 nodes)
  | none =>
    let counts ← sourceCounts nodes edges
    let offsets ← runningTotals #[] 0 counts.toList
    let targets ← placeTargets offsets (Array.replicate edges.length 0) edges
    return ⟨offsets, targets⟩

def nodes (g : Adjacency) : Nat :=
  g.offsets.size - 1

def relationships (g : Adjacency) : Nat :=
  g.targets.size

/-- The targets of the edges out of a node, in the order the edges were given. -/
def neighbors (g : Adjacency) (node : Nat) : Except Fault (List Nat) :=
  match g.offsets[node]?, g.offsets[node + 1]? with
  | some lower, some upper =>
    if lower ≤ upper ∧ upper ≤ g.targets.size then .ok (g.targets.extract lower upper).toList
    else .error .outOfBounds
  | _, _ => .error .outOfBounds

def degree (g : Adjacency) (node : Nat) : Except Fault Nat := do
  let next ← addCounts node 1
  match g.offsets[next]?, g.offsets[node]? with
  | some upper, some lower => if lower ≤ upper then return upper - lower else throw .overflow
  | _, _ => throw .outOfBounds

def toGraph (g : Adjacency) : Graph :=
  ⟨g.nodes, g.relationships, g.degree, g.neighbors⟩

/-- All edges, by source and in the order of each source. -/
def edges (g : Adjacency) : Except Fault (List (Nat × Nat)) := do
  let rows ← (List.range g.nodes).mapM fun source => do
    let targets ← g.neighbors source
    return targets.map fun target => (source, target)
  return rows.flatten

/-- The graph with every edge followed by its reverse. Room for the list of twice as many edges is
assumed and not asked for: it could be refused only from `2 ^ 58` edges on, whose targets alone
take `2 ^ 61` bytes. -/
def undirected (g : Adjacency) : Except Fault Adjacency := do
  let edges ← g.edges
  ofEdges g.nodes (edges.flatMap fun e => [e, (e.2, e.1)])

end Adjacency

end BulkSync
