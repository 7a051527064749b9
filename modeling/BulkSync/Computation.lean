import BulkSync.Aggregates
import BulkSync.Mailroom
import BulkSync.Program
import BulkSync.Schema
import BulkSync.Signal

namespace BulkSync

/-- What every callback of a node can do: use the node's own values, ask for its degree, and
raise a signal. -/
inductive OwnOp where
  | read (scalar : Scalar) (key : String)
  | readArray (scalar : Scalar) (key : String)
  | write (scalar : Scalar) (key : String) (cell : scalar.Cell)
  | writeArray (scalar : Scalar) (key : String) (cells : List scalar.Cell)
  | degree
  | raise (signal : Signal)

abbrev OwnOp.Answer : OwnOp → Type
  | .read s _ => s.Cell
  | .readArray s _ => List s.Cell
  | .write _ _ _ => Unit
  | .writeArray _ _ _ => Unit
  | .degree => Nat
  | .raise _ => Unit

abbrev ownSignature : Signature := ⟨OwnOp, OwnOp.Answer⟩

/-- What a node can do while it computes. Sending to the neighbors is answered with them. -/
inductive NodeOp (M : Type) where
  | own (op : OwnOp)
  | readOf (scalar : Scalar) (key : String) (node : Nat)
  | neighbors
  | send (target : Nat) (message : M)
  | sendNeighbors (message : M)
  | vote
  | aggregate (key : String) (x : Float)
  | aggregated (key : String)

abbrev NodeOp.Answer {M : Type} : NodeOp M → Type
  | .own op => op.Answer
  | .readOf s _ _ => s.Cell
  | .neighbors => List Nat
  | .send _ _ => Unit
  | .sendNeighbors _ => List Nat
  | .vote => Unit
  | .aggregate _ _ => Unit
  | .aggregated _ => Option Float

abbrev nodeSignature (M : Type) : Signature := ⟨NodeOp M, NodeOp.Answer⟩

/-- What can be done between supersteps, with a view of all nodes. -/
inductive MasterOp where
  | get (key : String) (node : Nat)
  | set (key : String) (node : Nat) (value : Value)
  | aggregated (key : String)
  | raise (signal : Signal)

abbrev MasterOp.Answer : MasterOp → Type
  | .get _ _ => Value
  | .set _ _ _ => Unit
  | .aggregated _ => Option Float
  | .raise _ => Unit

abbrev masterSignature : Signature := ⟨MasterOp, MasterOp.Answer⟩

abbrev OwnProgram := Program ownSignature

abbrev NodeProgram (M : Type) := Program (nodeSignature M)

abbrev MasterProgram := Program masterSignature

namespace OwnProgram

/-- Reads the single cell of the own node. -/
def read (s : Scalar) (key : String) : OwnProgram s.Cell :=
  .call (.read s key) .done

def readArray (s : Scalar) (key : String) : OwnProgram (List s.Cell) :=
  .call (.readArray s key) .done

def write (s : Scalar) (key : String) (x : s.Cell) : OwnProgram Unit :=
  .call (.write s key x) .done

/-- Writes the cell that holds a number. -/
def writeNumber (s : Scalar) (key : String) (x : s.Number) : OwnProgram Unit :=
  write s key (s.ofNumber x)

def writeArray (s : Scalar) (key : String) (xs : List s.Cell) : OwnProgram Unit :=
  .call (.writeArray s key xs) .done

def degree : OwnProgram Nat :=
  .call .degree .done

def raise (signal : Signal) : OwnProgram Unit :=
  .call (.raise signal) .done

/-- What a node can do at any time it can do while it computes. -/
def toNode {M α : Type} (p : OwnProgram α) : NodeProgram M α :=
  p.embed NodeOp.own fun _ => rfl

end OwnProgram

namespace NodeProgram

variable {M : Type}

def read (s : Scalar) (key : String) : NodeProgram M s.Cell :=
  .call (.own (.read s key)) .done

def write (s : Scalar) (key : String) (x : s.Cell) : NodeProgram M Unit :=
  .call (.own (.write s key x)) .done

/-- Reads the number in the single cell of the own node. -/
def readNumber (s : Scalar) (key : String) : NodeProgram M s.Number :=
  .call (.own (.read s key)) fun x => .done (s.toNumber x)

/-- Writes the cell that holds a number. -/
def writeNumber (s : Scalar) (key : String) (x : s.Number) : NodeProgram M Unit :=
  write s key (s.ofNumber x)

def degree : NodeProgram M Nat :=
  .call (.own .degree) .done

/-- Reads a cell of another node. -/
def readOf (s : Scalar) (key : String) (node : Nat) : NodeProgram M s.Cell :=
  .call (.readOf s key node) .done

def neighbors : NodeProgram M (List Nat) :=
  .call .neighbors .done

def send (target : Nat) (message : M) : NodeProgram M Unit :=
  .call (.send target message) .done

def sendNeighbors (message : M) : NodeProgram M Unit :=
  .call (.sendNeighbors message) fun _ => .done ()

/-- Stops computing this node until a message arrives for it. -/
def vote : NodeProgram M Unit :=
  .call .vote .done

def aggregate (key : String) (x : Float) : NodeProgram M Unit :=
  .call (.aggregate key x) .done

/-- The aggregate of the superstep before, if anything was contributed to it. -/
def aggregated (key : String) : NodeProgram M (Option Float) :=
  .call (.aggregated key) .done

end NodeProgram

namespace MasterProgram

def get (key : String) (node : Nat) : MasterProgram Value :=
  .call (.get key node) .done

def set (key : String) (node : Nat) (value : Value) : MasterProgram Unit :=
  .call (.set key node value) .done

def aggregated (key : String) : MasterProgram (Option Float) :=
  .call (.aggregated key) .done

def raise (signal : Signal) : MasterProgram Unit :=
  .call (.raise signal) .done

end MasterProgram

/-- Where and when a node computes. -/
structure Place where
  node : Nat
  superstep : Nat
  nodes : Nat
deriving DecidableEq, Repr

/-- What every node does in every superstep. `init` runs once for each node, right before its
first `compute`; `master` runs after each superstep and ends the run by answering `true`. Each
callback also leaves a report. -/
structure Computation (M R : Type) where
  fields : List Field
  aggregators : List Aggregator
  init : (node nodes : Nat) → OwnProgram R
  compute : Place → Messages M → NodeProgram M R
  master : (superstep nodes : Nat) → MasterProgram (Bool × R)

end BulkSync
