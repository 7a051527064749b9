import BulkSync.Message
import BulkSync.PageRank
import BulkSync.Text.Decimal
import BulkSync.Tool

namespace BulkSync

structure RankOptions where
  edges : String
  output : String
  maxIterations : Nat
  tolerance : Float
  concurrency : Option Nat
  partitioning : Partitioning

def partitioningOption? : String → Option Partitioning
  | "range" => some .range
  | "degree" => some .degree
  | "auto" => some .auto
  | _ => none

def RankOptions.read? (arguments : List String) : Option RankOptions := do
  let known := ["output", "max-iterations", "tolerance", "concurrency", "partitioning"]
  let arguments ← readArguments? known arguments .empty
  let edges ← edgesPath? arguments
  let output ← optionOr? arguments "output" readPath? "page_rank.tsv"
  let maxIterations ← optionOr? arguments "max-iterations" readCountText? 30
  let tolerance ← optionOr? arguments "tolerance" readDouble? 1e-7
  let concurrency ← optionOr? arguments "concurrency" (fun t => (readCountText? t).map some) none
  let partitioning ← optionOr? arguments "partitioning" partitioningOption? .auto
  return ⟨edges, output, maxIterations, tolerance, concurrency, partitioning⟩

/-- Ranks the nodes of an edge list. -/
def RankOptions.ranks (options : RankOptions) (concurrency : Nat) (content : Content) :
    Except Failure (List Float) := do
  let graph ← Adjacency.load .lenient tabSeparatedEdge content
  let workers := options.concurrency.getD concurrency
  let config : Config := { Config.standard workers with
    maxSupersteps := options.maxIterations
    partitioning := options.partitioning }
  let result ← runToEnd graph.toGraph config (pageRank options.tolerance) (.combined Message.sum)
  let ranks ← orFailure (result.values.readAll .double "rank")
  return ranks.map Double.toFloat

/-- The place of a double in the order of all doubles: negative before positive, by magnitude,
so that -0.0 comes before 0.0 and not-a-number comes last on its side. -/
def doubleRank (x : Float) : Int :=
  let bits := x.toBits.toNat
  if bits < Nat.pow 2 63 then bits else Nat.pow 2 63 - 1 - (bits : Int)

/-- The last of the nodes with the greatest rank. -/
def greatestRank? (ranks : List Float) : Option (Nat × Float) :=
  ranks.zipIdx.foldl (fun best (rank, node) =>
    match best with
    | none => some (node, rank)
    | some (_, top) => if doubleRank top ≤ doubleRank rank then some (node, rank) else best) none

/-- The ranks as the rows of a file. -/
def rankRows (ranks : List Float) : List (String × String) :=
  ranks.zipIdx.map fun (rank, node) => (toString node, doubleText rank)

/-- Ranks an edge list, writes the ranks and prints the greatest. -/
def RankOptions.run {m : Type → Type} [Monad m] (options : RankOptions) (host : Host m)
    (concurrency : Nat) : m Nat := do
  match options.ranks concurrency (← host.read options.edges) with
  | .error failure => host.stop failure
  | .ok ranks =>
    if ← host.write options.output (rowsText (rankRows ranks)) then
      if let some (node, rank) := greatestRank? ranks then
        let text := doubleText rank
        host.print s!"Max node: {node}, rank: {text}"
      return 0
    else return 1

end BulkSync
