import BulkSync.Components
import BulkSync.Message
import BulkSync.Tool

namespace BulkSync

structure ComponentOptions where
  edges : String
  top : Nat
  concurrency : Option Nat

def ComponentOptions.read? (arguments : List String) : Option ComponentOptions := do
  let arguments ← readArguments? ["top", "concurrency"] arguments .empty
  let edges ← edgesPath? arguments
  let top ← optionOr? arguments "top" readCountText? 10
  let concurrency ← optionOr? arguments "concurrency" (fun t => (readCountText? t).map some) none
  return ⟨edges, top, concurrency⟩

/-- The final labels of the nodes of an edge list whose edges count in both directions. -/
def ComponentOptions.labels (options : ComponentOptions) (concurrency : Nat) (content : Content) :
    Except Failure (List Int64) := do
  let directed ← Adjacency.load .lenient tabSeparatedEdge content
  let graph ← orFailure directed.undirected
  let workers := options.concurrency.getD concurrency
  let config : Config := { Config.standard workers with maxSupersteps := max graph.nodes 1 }
  let result ← runToEnd graph.toGraph config components (.combined Message.minimum)
  orFailure (result.values.readAll .long "component")

/-- The largest components, as many as are asked for. -/
def ComponentOptions.sizes (options : ComponentOptions) (concurrency : Nat) (content : Content) :
    Except Failure (List ComponentSize) := do
  let labels ← options.labels concurrency content
  return (componentSizes labels).take options.top

def ComponentSize.line (entry : ComponentSize) : String :=
  let label := toString entry.label.toInt
  s!"{label}\t{entry.size}"

/-- Finds the components of an edge list and prints the largest. -/
def ComponentOptions.run {m : Type → Type} [Monad m] (options : ComponentOptions) (host : Host m)
    (concurrency : Nat) : m Nat := do
  match options.sizes concurrency (← host.read options.edges) with
  | .error failure => host.stop failure
  | .ok sizes =>
    for entry in sizes do
      host.print entry.line
    return 0

end BulkSync
