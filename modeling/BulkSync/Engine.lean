import BulkSync.Computation
import BulkSync.Config
import BulkSync.HaltSet
import BulkSync.Strategy
import BulkSync.ValueStore

namespace BulkSync

/-- Everything the callbacks of a run share. -/
structure State (M : Type) where
  values : ValueStore
  halted : HaltSet
  mail : Mailroom M
  aggregates : Aggregates
  signals : Signals

/-- A computation made ready to run over a graph. -/
structure Engine (M R : Type) where
  graph : Graph
  config : Config
  computation : Computation M R
  strategy : Strategy
  /-- The signal that stops the run. -/
  watched : Signal
  state : State M

/-- How the tasks of a configuration are cut. -/
def Config.strategy (config : Config) (graph : Graph) : Except Fault Strategy :=
  match config.partitioning with
  | .auto => .ok (.workStealing config.partitionThreshold)
  | .range => do
    let partitions ← rangePartitions config.concurrency graph.nodes
    return .partitioned partitions
  | .degree => do
    let partitions ← degreePartitions graph config.concurrency
    return .partitioned partitions

namespace Engine

variable {M R : Type}

/-- Requests every buffer a run needs, so that no superstep has to. The engine watches a new
signal of its own. -/
def create (memory : Memory) (signals : Signals) (graph : Graph) (config : Config)
    (computation : Computation M R) (delivery : Delivery M) : Except Failure (Engine M R) := do
  config.validate
  let schema ← orFailure (Schema.ofFields computation.fields)
  let values ← ValueStore.create memory schema graph.nodes
  let halted ← HaltSet.create memory graph.nodes
  let mail ← Mailroom.create memory delivery graph.nodes
  let strategy ← orFailure (config.strategy graph)
  let aggregates ← orFailure (Aggregates.create computation.aggregators)
  let (watched, signals) := signals.create
  return ⟨graph, config, computation, strategy, watched,
    ⟨values, halted, mail, aggregates, signals⟩⟩

/-- Lets another signal stop the run. -/
def watch (signal : Signal) (engine : Engine M R) : Engine M R :=
  { engine with watched := signal }

def raise (signal : Signal) (engine : Engine M R) : Engine M R :=
  { engine with
    state := { engine.state with signals := engine.state.signals.raise signal } }

end Engine

end BulkSync
