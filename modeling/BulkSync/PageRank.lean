import BulkSync.Computation

namespace BulkSync

/-- The share of its rank a node passes on. -/
def damping : Float := 0.85

/-- The rank a node starts with. -/
def initialRank (nodes : Nat) : Float :=
  1.0 / Float.ofNat nodes

/-- The rank of a node from the sum of what its predecessors pass on. -/
def nextRank (nodes : Nat) (received : Float) : Float :=
  (1.0 - damping) / Float.ofNat nodes + damping * received

/-- The sum of the messages of a node. -/
def receivedRank (messages : Messages Float) : Float :=
  messages.waiting.foldl (· + ·) 0.0

/-- Ranks nodes by the ranks of the nodes that point to them. Every node passes its rank on in
equal parts; the run ends once no rank moves by as much as the tolerance. -/
def pageRank (tolerance : Float) : Computation Float Unit where
  fields := [⟨"rank", .single .double⟩]
  aggregators :=
    [⟨"delta", Combiner.max⟩, ⟨"rank_sum", fun a b => .ok (a + b)⟩]
  init _ nodes := OwnProgram.writeNumber .double "rank" (initialRank nodes)
  compute place messages := do
    let old ← NodeProgram.readNumber .double "rank"
    let rank ←
      if place.superstep = 0 then .done old
      else do
        let next := nextRank place.nodes (receivedRank messages)
        NodeProgram.aggregate "delta" (next - old).abs
        NodeProgram.writeNumber .double "rank" next
        .done next
    let degree ← NodeProgram.degree
    if degree > 0 then NodeProgram.sendNeighbors (rank / Float.ofNat degree)
    NodeProgram.aggregate "rank_sum" rank
  master _ _ := do
    let delta ← MasterProgram.aggregated "delta"
    return (delta.any (· < tolerance), ())

end BulkSync
