import BulkSync.Fault
import BulkSync.Text.Quoted

namespace BulkSync

/-- The settings that must not be zero. -/
inductive Setting where
  | concurrency
  | maxSupersteps
  | partitionThreshold
deriving DecidableEq, Repr

def Setting.name : Setting → String
  | .concurrency => "concurrency"
  | .maxSupersteps => "max_supersteps"
  | .partitionThreshold => "partition_threshold"

/-- The per-node buffers that are requested before the first superstep. -/
inductive Buffer where
  | nodeValues
  | haltBits
  | messageQueues
  | messageSlots
deriving DecidableEq, Repr

def Buffer.name : Buffer → String
  | .nodeValues => "node values"
  | .haltBits => "halt bits"
  | .messageQueues => "message queues"
  | .messageSlots => "message slots"

inductive ReadProblem where
  | notFound
  | invalidText
deriving DecidableEq, Repr

def ReadProblem.message : ReadProblem → String
  | .notFound => "No such file or directory (os error 2)"
  | .invalidText => "stream did not contain valid UTF-8"

/-- Why a graph could not be loaded or an engine could not be built. -/
inductive Failure where
  | invalidSetting (setting : Setting)
  | allocation (buffer : Buffer) (nodes : Nat)
  | unreadable (problem : ReadProblem)
  | malformedEdge (line : Nat) (content : String)
  | fault (fault : Fault)
deriving DecidableEq, Repr

def Failure.message? : Failure → Option String
  | .invalidSetting setting =>
    let field := setting.name
    some s!"Invalid configuration for `{field}`: must be at least 1"
  | .allocation buffer nodes =>
    let what := buffer.name
    some s!"Failed to allocate {what} for {nodes} nodes"
  | .unreadable problem => some ("I/O error: " ++ problem.message)
  | .malformedEdge line content =>
    let shown := quoted content
    some s!"Malformed edge at line {line}: {shown}"
  | .fault f => f.message?

/-- A fault is the failure of whatever was being built. -/
def orFailure {α : Type} : Except Fault α → Except Failure α
  | .ok a => .ok a
  | .error f => .error (.fault f)

/-- The largest request for bytes that is granted. -/
structure Memory where
  limit : Nat

/-- What a process can address at most. -/
def Memory.addressable : Memory := ⟨Nat.pow 2 47⟩

/-- Grants `slots` slots of `size` bytes each, or names the buffer they were meant for. -/
def Memory.reserve (memory : Memory) (buffer : Buffer) (nodes slots size : Nat) :
    Except Failure Unit :=
  if slots * size ≤ memory.limit then .ok () else .error (.allocation buffer nodes)

end BulkSync
