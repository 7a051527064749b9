import BulkSync.Message
import BulkSync.ShortestPaths
import BulkSync.Text.Decimal
import BulkSync.Tool

namespace BulkSync

structure PathOptions where
  edges : String
  source : Nat
  output : String
  maxSupersteps : Nat
  concurrency : Option Nat

def PathOptions.read? (arguments : List String) : Option PathOptions := do
  let known := ["source", "output", "max-supersteps", "concurrency"]
  let arguments ← readArguments? known arguments .empty
  let edges ← edgesPath? arguments
  let source ← optionOr? arguments "source" readCountText? 0
  let output ← optionOr? arguments "output" readPath? "sssp.tsv"
  let maxSupersteps ← optionOr? arguments "max-supersteps" readCountText? 100
  let concurrency ← optionOr? arguments "concurrency" (fun t => (readCountText? t).map some) none
  return ⟨edges, source, output, maxSupersteps, concurrency⟩

/-- The distances of all nodes of an edge list from the source. -/
def PathOptions.distances (options : PathOptions) (concurrency : Nat) (content : Content) :
    Except Failure (List Float) := do
  let graph ← Adjacency.load .lenient tabSeparatedEdge content
  let workers := options.concurrency.getD concurrency
  let config : Config := { Config.standard workers with maxSupersteps := options.maxSupersteps }
  let result ← runToEnd graph.toGraph config (shortestPaths options.source)
    (.combined Message.minimum)
  let distances ← orFailure (result.values.readAll .double "distance")
  return distances.map Double.toFloat

/-- The nodes that were reached, each with its distance, as the rows of a file. -/
def reachedRows (distances : List Float) : List (String × String) :=
  distances.zipIdx.filterMap fun (distance, node) =>
    if distance.isFinite then some (toString node, doubleText distance) else none

/-- Measures the distances in an edge list and writes those that are finite. -/
def PathOptions.run {m : Type → Type} [Monad m] (options : PathOptions) (host : Host m)
    (concurrency : Nat) : m Nat := do
  match options.distances concurrency (← host.read options.edges) with
  | .error failure => host.stop failure
  | .ok distances =>
    if ← host.write options.output (rowsText (reachedRows distances)) then return 0
    else return 1

end BulkSync
