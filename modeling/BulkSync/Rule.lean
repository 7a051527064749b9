import BulkSync.Aggregates
import BulkSync.Computation

namespace BulkSync

/-- A count a rule can name. -/
inductive Quantity where
  | id
  | degree
  | step
  | count
  | nodes
deriving DecidableEq, Repr

/-- A way to fold the messages that were read. -/
inductive Fold where
  | sum
  | min
  | max
  | first
  | last
deriving DecidableEq, Repr

/-- A term of a rule: a constant, a count, or the messages read folded into one. -/
inductive Term (M C : Type) where
  | constant (c : C)
  | quantity (quantity : Quantity)
  | folded (fold : Fold) (use : M → C)

/-- The receiver of a message: a node, or the one so many places ahead, around the graph. -/
inductive Destination where
  | node (id : Nat)
  | ahead (places : Nat)
deriving DecidableEq, Repr

/-- Actions on the values of the own node. -/
inductive OwnAction (M : Type) where
  | get (scalar : Scalar) (key : String)
  | getArray (scalar : Scalar) (key : String)
  | set (scalar : Scalar) (key : String) (term : Term M scalar.Cell)
  | setArray (scalar : Scalar) (key : String) (cells : List scalar.Cell)
  | add (scalar : Scalar) (key : String) (term : Term M scalar.Cell)
  | raise (text : String)

inductive InitAction (M : Type) where
  | own (action : OwnAction M)
  | info

inductive ComputeAction (M : Type) where
  | own (action : OwnAction M)
  | send (destination : Destination) (term : Term M M)
  | sendNeighbors (term : Term M M)
  | vote
  | aggregate (key : String) (term : Term M Float)
  | aggregated (key : String)
  | valueOf (scalar : Scalar) (key : String) (node : Nat)
  | neighbors
  | info
  | cancel

inductive MasterAction where
  | stop
  | stopIfBelow (key : String) (bound : Float)
  | aggregated (key : String)
  | get (key : String) (node : Nat)
  | set (key : String) (node : Nat) (value : Value)
  | info
  | cancel
  | raise (text : String)

/-- When a rule applies; what is not given holds. -/
structure Condition where
  steps : Option (Nat × Nat)
  node : Option Nat
  residue : Option (Nat × Nat)
  got : Option Bool
deriving DecidableEq, Repr

structure Rule (A : Type) where
  condition : Condition
  actions : List A

/-- A computation given as rules. -/
structure RuleBook (M : Type) where
  fields : List Field
  aggregators : List Aggregator
  init : List (Rule (InitAction M))
  compute : List (Rule (ComputeAction M))
  master : List (Rule MasterAction)
  /-- Whether the messages read are sorted. -/
  sorted : Bool
  /-- How many messages are read at most. -/
  limit : Option Nat

/-- What an action learned. -/
inductive Reading where
  | cell (scalar : Scalar) (cell : scalar.Cell)
  | cells (scalar : Scalar) (cells : List scalar.Cell)
  | total (total : Option Float)
  | nodes (nodes : List Nat)
  | value (value : Value)
  | atInit (node nodes degree : Nat)
  | atCompute (place : Place) (degree : Nat)
  | atMaster (superstep nodes : Nat)

def Condition.holds (condition : Condition) (step node : Nat) (got : Bool) : Bool :=
  condition.steps.all (fun (lo, hi) => lo ≤ step && step ≤ hi) &&
    condition.node.all (· == node) &&
    condition.residue.all (fun (m, r) => node % m == r) &&
    condition.got.all (· == got)

/-- The actions of all rules that apply, in order. -/
def applicable {A : Type} (rules : List (Rule A)) (step node : Nat) (got : Bool) : List A :=
  (rules.filter fun rule => rule.condition.holds step node got).flatMap Rule.actions

end BulkSync
